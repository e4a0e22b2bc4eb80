import Mathlib.Data.List.Basic

/-!
# Runs of a step function

A run feeds a list of inputs to a step function. An invariant of the steps is
an invariant of the runs, also when the steps are only known to preserve it
under a condition that every step of the run meets.
-/

namespace Imperative

variable {ι σ : Type}

/-- The state after the inputs `xs`. -/
def run (step : ι → σ → σ) (s : σ) (xs : List ι) : σ := xs.foldl (fun s x => step x s) s

/-- Every step of the run meets the condition, in the state it starts from. -/
def Meets (cond : ι → σ → Prop) (step : ι → σ → σ) : σ → List ι → Prop
  | _, [] => True
  | s, x :: xs => cond x s ∧ Meets cond step (step x s) xs

instance decidableMeets (cond : ι → σ → Prop) [∀ x s, Decidable (cond x s)] (step : ι → σ → σ) :
    (s : σ) → (xs : List ι) → Decidable (Meets cond step s xs)
  | _, [] => inferInstanceAs (Decidable True)
  | s, x :: xs =>
      have := decidableMeets cond step (step x s) xs
      inferInstanceAs (Decidable (cond x s ∧ Meets cond step (step x s) xs))

/-- Every state of the run satisfies `P`, the first and the last one included. -/
def Always (P : σ → Prop) (step : ι → σ → σ) : σ → List ι → Prop
  | s, [] => P s
  | s, x :: xs => P s ∧ Always P step (step x s) xs

instance decidableAlways (P : σ → Prop) [DecidablePred P] (step : ι → σ → σ) :
    (s : σ) → (xs : List ι) → Decidable (Always P step s xs)
  | s, [] => inferInstanceAs (Decidable (P s))
  | s, x :: xs =>
      have := decidableAlways P step (step x s) xs
      inferInstanceAs (Decidable (P s ∧ Always P step (step x s) xs))

section

variable {step : ι → σ → σ} {s : σ} {cond : ι → σ → Prop}

@[simp] theorem run_nil : run step s [] = s := rfl

@[simp] theorem run_cons (x : ι) (xs : List ι) : run step s (x :: xs) = run step (step x s) xs :=
  rfl

theorem run_append (xs ys : List ι) : run step s (xs ++ ys) = run step (run step s xs) ys :=
  List.foldl_append

@[simp] theorem run_concat (xs : List ι) (x : ι) :
    run step s (xs ++ [x]) = step x (run step s xs) :=
  run_append xs [x]

theorem meets_append (xs ys : List ι) :
    Meets cond step s (xs ++ ys) ↔ Meets cond step s xs ∧ Meets cond step (run step s xs) ys := by
  induction xs generalizing s with
  | nil => simp [Meets]
  | cons x xs ih => simp [Meets, ih, and_assoc]

theorem run_map {κ : Type} (f : κ → ι) (xs : List κ) :
    run step s (xs.map f) = run (fun x s => step (f x) s) s xs :=
  List.foldl_map

theorem meets_map {κ : Type} (f : κ → ι) (xs : List κ) : Meets cond step s (xs.map f) ↔
    Meets (fun x s => cond (f x) s) (fun x s => step (f x) s) s xs := by
  induction xs generalizing s with
  | nil => rfl
  | cons x xs ih => simp [Meets, ih]

/-- A condition on the inputs alone. -/
theorem meets_iff_forall {p : ι → Prop} (hcond : ∀ x s, cond x s ↔ p x) {xs : List ι} :
    Meets cond step s xs ↔ ∀ x ∈ xs, p x := by
  induction xs generalizing s with
  | nil => simp [Meets]
  | cons x xs ih => simp [Meets, ih, hcond]

/-- The states of a run are those after its prefixes. -/
theorem always_iff_initial {P : σ → Prop} {xs : List ι} :
    Always P step s xs ↔ ∀ ys, ys <+: xs → P (run step s ys) := by
  induction xs generalizing s with
  | nil =>
      constructor
      · intro h ys hinitial
        rw [List.prefix_nil.mp hinitial]
        exact h
      · exact fun h => h [] List.prefix_rfl
  | cons x xs ih =>
      rw [Always, ih]
      constructor
      · rintro ⟨hs, hxs⟩ ys hinitial
        cases ys with
        | nil => exact hs
        | cons y ys =>
            obtain ⟨rfl, hrest⟩ := List.cons_prefix_cons.mp hinitial
            exact hxs ys hrest
      · intro hall
        refine ⟨hall [] (List.nil_prefix), fun ys hinitial => ?_⟩
        exact hall (x :: ys) (List.cons_prefix_cons.mpr ⟨rfl, hinitial⟩)

theorem Always.first {P : σ → Prop} {xs : List ι} (h : Always P step s xs) : P s := by
  cases xs with
  | nil => exact h
  | cons x xs => exact h.1

theorem always_append {P : σ → Prop} (xs ys : List ι) :
    Always P step s (xs ++ ys) ↔ Always P step s xs ∧ Always P step (run step s xs) ys := by
  induction xs generalizing s with
  | nil => exact ⟨fun h => ⟨h.first, h⟩, fun h => h.2⟩
  | cons x xs ih => simp [Always, ih, and_assoc]

theorem run_invariant_of_meets (I : σ → Prop)
    (hstep : ∀ x s, I s → cond x s → I (step x s)) {xs : List ι}
    (hmeets : Meets cond step s xs) (hinit : I s) : I (run step s xs) := by
  induction xs generalizing s with
  | nil => exact hinit
  | cons x xs ih => exact ih hmeets.2 (hstep x s hinit hmeets.1)

/-- Two conditions that agree in every state of an invariant are met by the same runs. -/
theorem meets_congr {cond' : ι → σ → Prop} (I : σ → Prop) (hstep : ∀ x s, I s → I (step x s))
    (hiff : ∀ x s, I s → (cond x s ↔ cond' x s)) (hinit : I s) (xs : List ι) :
    Meets cond step s xs ↔ Meets cond' step s xs := by
  induction xs generalizing s with
  | nil => rfl
  | cons x xs ih => exact and_congr (hiff x s hinit) (ih (hstep x s hinit))

theorem run_invariant (I : σ → Prop) (hstep : ∀ x s, I s → I (step x s)) (hinit : I s)
    (xs : List ι) : I (run step s xs) := by
  induction xs generalizing s with
  | nil => exact hinit
  | cons x xs ih => exact ih (hstep x s hinit)

end

end Imperative
