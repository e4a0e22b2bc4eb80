import Mathlib.Data.List.Induction
import SmartCar.Imperative.Run

/-!
# Nested brackets

Code that brackets its body between two calls may be interrupted, inside the
body, by other code that does the same. Where the closing call of each kind
undoes its opening call, what the calls have made of a value only depends on
the brackets that are still open.
-/

namespace Imperative

variable {κ α : Type}

/-- A bracket of kind `k` opens, or the innermost one, of kind `k`, closes. -/
inductive Bracket (κ : Type) where
  | enter (k : κ)
  | exit (k : κ)
deriving DecidableEq

/-- The open brackets, the innermost one first, and the value the calls work on. -/
structure Nest (κ α : Type) where
  active : List κ
  value : α

namespace Nest

section

variable (first last : κ → α → α)

/-- `first k` is the opening call of a bracket of kind `k`, `last k` the closing one. -/
def step : Bracket κ → Nest κ α → Nest κ α
  | .enter k, s => ⟨k :: s.active, first k s.value⟩
  | .exit k, s => ⟨s.active.tail, last k s.value⟩

/-- Only the innermost bracket closes, and fewer than `limit` are open at once. -/
def Fits (limit : Nat) : Bracket κ → Nest κ α → Prop
  | .enter _, s => s.active.length + 1 < limit
  | .exit k, s => s.active.head? = some k

instance [DecidableEq κ] (limit : Nat) : (x : Bracket κ) → (s : Nest κ α) →
    Decidable (Fits limit x s)
  | .enter _, s => inferInstanceAs (Decidable (s.active.length + 1 < limit))
  | .exit k, s => inferInstanceAs (Decidable (s.active.head? = some k))

/-- A well-nested sequence of brackets that starts with none open. -/
abbrev WellNested (limit : Nat) (v : α) (events : List (Bracket κ)) : Prop :=
  Meets (Fits limit) (step first last) ⟨[], v⟩ events

end

/-! ## The value -/

section Value

variable {first last : κ → α → α} {limit : Nat} {v : α} {events : List (Bracket κ)}

/-- The opening calls of the open brackets are what is left of all calls. -/
theorem value_eq_foldr (hundo : ∀ k v, last k (first k v) = v)
    (h : WellNested first last limit v events) :
    (run (step first last) ⟨[], v⟩ events).value =
      (run (step first last) ⟨[], v⟩ events).active.foldr first v := by
  refine run_invariant_of_meets (fun s => s.value = s.active.foldr first v) ?_ h rfl
  intro x s hs hfits
  cases x with
  | enter k =>
      change first k s.value = first k (s.active.foldr first v)
      rw [hs]
  | exit k =>
      obtain ⟨active, value⟩ := s
      obtain ⟨rest, rfl⟩ := List.head?_eq_some_iff.mp hfits
      change value = first k (rest.foldr first v) at hs
      change last k value = rest.foldr first v
      rw [hs, hundo]

theorem length_lt (hlimit : 0 < limit) (h : WellNested first last limit v events) :
    (run (step first last) ⟨[], v⟩ events).active.length < limit := by
  refine run_invariant_of_meets (fun s => s.active.length < limit) ?_ h hlimit
  intro x s hs hfits
  cases x with
  | enter k => exact hfits
  | exit k =>
      change s.active.tail.length < limit
      rw [List.length_tail]
      omega

/-- What is open has been entered. -/
theorem mem_active {k : κ} (h : k ∈ (run (step first last) ⟨[], v⟩ events).active) :
    .enter k ∈ events := by
  induction events using List.reverseRecOn with
  | nil => cases h
  | append_singleton events x ih =>
      rw [run_concat] at h
      cases x with
      | enter j =>
          rcases List.mem_cons.mp h with rfl | hmem
          · simp
          · exact List.mem_append_left _ (ih hmem)
      | exit j => exact List.mem_append_left _ (ih (List.mem_of_mem_tail h))

theorem WellNested.of_initial {earlier : List (Bracket κ)}
    (h : WellNested first last limit v events) (hinitial : earlier <+: events) :
    WellNested first last limit v earlier := by
  obtain ⟨later, rfl⟩ := hinitial
  exact ((meets_append earlier later).mp h).1

end Value

end Nest

end Imperative
