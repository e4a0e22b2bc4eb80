import Mathlib.Data.List.Induction
import SmartCar.Imperative.Logged
import SmartCar.Imperative.Run

/-!
# Traces

The accesses of a whole run, in order. What the trace of a run looks like is
proved by an invariant that relates the state to the trace so far.
-/

namespace Imperative

open Logged

variable {ι σ ε : Type}

@[simp] theorem log_pure (a : σ) : (pure a : Logged ε σ).log = [] := rfl

theorem log_bind {τ : Type} (x : Logged ε σ) (f : σ → Logged ε τ) :
    (x >>= f).log = x.log ++ (f x.val).log := rfl

theorem log_touch (e : ε) : (touch e).log = [e] := rfl

/-- The same computation with other names for its accesses. -/
def relabel {η : Type} (f : ε → η) (x : Logged ε σ) : Logged η σ := ⟨x.val, x.log.map f⟩

/-- The state after a step that logs what it does. -/
def unlogged (exec : ι → σ → Logged ε σ) (x : ι) (s : σ) : σ := (exec x s).val

/-- The log of a run. -/
def trace (exec : ι → σ → Logged ε σ) : σ → List ι → List ε
  | _, [] => []
  | s, x :: xs => (exec x s).log ++ trace exec (exec x s).val xs

section

variable {exec : ι → σ → Logged ε σ} {s : σ}

@[simp] theorem trace_nil : trace exec s [] = [] := rfl

@[simp] theorem trace_cons (x : ι) (xs : List ι) :
    trace exec s (x :: xs) = (exec x s).log ++ trace exec (exec x s).val xs := rfl

theorem trace_append (xs ys : List ι) :
    trace exec s (xs ++ ys) = trace exec s xs ++ trace exec (run (unlogged exec) s xs) ys := by
  induction xs generalizing s with
  | nil => rfl
  | cons x xs ih =>
      rw [List.cons_append, trace_cons, trace_cons, ih, List.append_assoc]
      rfl

@[simp] theorem trace_concat (xs : List ι) (x : ι) :
    trace exec s (xs ++ [x]) = trace exec s xs ++ (exec x (run (unlogged exec) s xs)).log := by
  simp [trace_append]

/-- A relation between the trace so far and the state. -/
theorem trace_invariant (R : List ε → σ → Prop)
    (hstep : ∀ l x s, R l s → R (l ++ (exec x s).log) (exec x s).val) (hinit : R [] s)
    (xs : List ι) : R (trace exec s xs) (run (unlogged exec) s xs) := by
  induction xs using List.reverseRecOn with
  | nil => exact hinit
  | append_singleton xs x ih =>
      rw [trace_concat, run_concat]
      exact hstep _ _ _ ih

/-- The same for steps that keep the relation under a condition. -/
theorem trace_invariant_of_meets {cond : ι → σ → Prop} (R : List ε → σ → Prop)
    (hstep : ∀ l x s, R l s → cond x s → R (l ++ (exec x s).log) (exec x s).val) {l : List ε}
    {xs : List ι} (hmeets : Meets cond (unlogged exec) s xs) (hinit : R l s) :
    R (l ++ trace exec s xs) (run (unlogged exec) s xs) := by
  induction xs generalizing l s with
  | nil => rwa [trace_nil, List.append_nil]
  | cons x xs ih =>
      rw [trace_cons, ← List.append_assoc]
      exact ih hmeets.2 (hstep l x s hinit hmeets.1)

end

end Imperative
