import SmartCar.Imperative.Trace

/-!
# Simulations

A step of one system is simulated by a few steps of another one, whose log is what
can be seen of the log of the first. Simulated steps make simulated runs, also when
they are only simulated under a condition that every step of the run meets.
-/

namespace Imperative

open Logged

variable {ι κ σ τ ε η : Type}

/-- The inputs `acts` of the other system take it from `t` to a state related to the
result of `x`. They meet its condition, and log what `f` shows of the log of `x`. -/
structure Simulated (f : ε → Option η) (exec : κ → τ → Logged η τ) (cond : κ → τ → Prop)
    (R : σ → τ → Prop) (x : Logged ε σ) (t : τ) (acts : List κ) : Prop where
  related : R x.val (run (unlogged exec) t acts)
  log : x.log.filterMap f = trace exec t acts
  meets : Meets cond (unlogged exec) t acts

/-- A step together with the inputs that it is for the other system. -/
def acting (exec : ι → σ → Logged ε σ) (acts : ι → σ → List κ) (x : ι) (s : σ) : Logged κ σ :=
  ⟨(exec x s).val, acts x s⟩

section

variable {f : ε → Option η} {exec : κ → τ → Logged η τ} {cond : κ → τ → Prop}
  {R : σ → τ → Prop} {x : Logged ε σ} {t : τ} {acts : List κ}

/-- A step that is none of the other system. -/
theorem Simulated.rest (hacts : acts = []) (hrelated : R x.val t) (hlog : x.log.filterMap f = []) :
    Simulated f exec cond R x t acts := by
  subst hacts
  exact ⟨hrelated, hlog, trivial⟩

/-- A step that is one of the other system. -/
theorem Simulated.act {a : κ} (hacts : acts = [a]) (hrelated : R x.val (exec a t).val)
    (hlog : x.log.filterMap f = (exec a t).log) (hcond : cond a t) :
    Simulated f exec cond R x t acts := by
  subst hacts
  refine ⟨hrelated, ?_, hcond, trivial⟩
  rw [trace_cons, trace_nil, List.append_nil]
  exact hlog

theorem Simulated.mono {R' : σ → τ → Prop} (h : Simulated f exec cond R x t acts)
    (hR : ∀ t', R x.val t' → R' x.val t') : Simulated f exec cond R' x t acts :=
  ⟨hR _ h.related, h.log, h.meets⟩

theorem meets_true {step : ι → σ → σ} {s : σ} (xs : List ι) :
    Meets (fun _ _ => True) step s xs := by
  induction xs generalizing s with
  | nil => trivial
  | cons x xs ih => exact ⟨trivial, ih⟩

/-- Simulated steps make a simulated run. -/
theorem simulated_run {exec' : ι → σ → Logged ε σ} {cond' : ι → σ → Prop}
    {acts : ι → σ → List κ} {s : σ} {xs : List ι}
    (hstep : ∀ x s t, R s t → cond' x s → Simulated f exec cond R (exec' x s) t (acts x s))
    (hmeets : Meets cond' (unlogged exec') s xs) (hinit : R s t) :
    Simulated f exec cond R ⟨run (unlogged exec') s xs, trace exec' s xs⟩ t
      (trace (acting exec' acts) s xs) := by
  induction xs generalizing s t with
  | nil => exact ⟨hinit, rfl, trivial⟩
  | cons x xs ih =>
      have hfirst := hstep x s t hinit hmeets.1
      have hrest := ih hmeets.2 hfirst.related
      rw [trace_cons, show trace (acting exec' acts) s (x :: xs) =
        acts x s ++ trace (acting exec' acts) (unlogged exec' x s) xs from rfl]
      refine ⟨?_, ?_, ?_⟩
      · rw [run_append]
        exact hrest.related
      · rw [List.filterMap_append, hfirst.log, trace_append]
        exact congrArg _ hrest.log
      · rw [meets_append]
        exact ⟨hfirst.meets, hrest.meets⟩

end

end Imperative
