import Mathlib.Logic.Function.Basic
import SmartCar.Imperative.Loop
import SmartCar.Imperative.Run

/-!
# Histories kept by shifting

A program keeps the last values of a signal in an array: each call writes the
newest value to cell 0 and then copies every cell to the next one, from the last
cell down. After a run, cell `k` holds the value recorded `k - 1` calls ago.
-/

namespace Imperative

open Logged

/-! ## The shift -/

section Shift

variable {ε α γ : Type} {P : ε → Prop} (cell : Int → ε) (hi : Int) (a : Int → α)
  (visit : α → γ → γ) (c : γ)

/-- `for (i = hi; i >= 1; i--) a[i] = a[i - 1];` where `visit` is what the body does
with the value just copied. -/
def shift : Logged ε ((Int → α) × γ) :=
  foldDown hi 0 (a, c) fun i st => do
    touch (cell (i - 1))
    touch (cell i)
    return (Function.update st.1 i (st.1 (i - 1)), visit (st.1 (i - 1)) st.2)

theorem shift_cell (hhi : 0 ≤ hi) (k : Int) :
    (shift cell hi a visit c).val.1 k = if 1 ≤ k ∧ k ≤ hi then a (k - 1) else a k := by
  have hrows : ∀ k, (shift cell hi a visit c).val.1 k =
      if 0 < k ∧ k ≤ hi then a (k - 1) else a k := by
    refine foldDown_rule (fun i (st : (Int → α) × γ) =>
      ∀ k, st.1 k = if i < k ∧ k ≤ hi then a (k - 1) else a k) (by omega) ?_ ?_
    · intro k
      rw [if_neg (by omega)]
    · intro i st hlo hhi' hst k
      simp only [val_bind, val_pure]
      rcases eq_or_ne k i with rfl | hne
      · rw [Function.update_self, hst, if_neg (by omega), if_pos (by omega)]
      · have hiff : (i < k ∧ k ≤ hi) ↔ (i - 1 < k ∧ k ≤ hi) := by omega
        rw [Function.update_of_ne hne, hst]
        simp only [hiff]
  exact hrows k

/-- The shift reads cells 0 to `hi - 1` and writes cells 1 to `hi`. -/
theorem all_shift : All P (shift cell hi a visit c) ↔
    ∀ i, 0 < i → i ≤ hi → P (cell (i - 1)) ∧ P (cell i) := by
  refine all_foldDown_iff fun i st _ _ => ?_
  simp

/-- What the visits add up to: a term for every cell but the last, as it was before
the shift. -/
theorem shift_sum {M : Type} [AddCommMonoid M] (g : α → M) (m : M) (hhi : 0 ≤ hi) :
    (shift cell hi a (fun x m => m + g x) m).val.2 = m + ∑ i ∈ Finset.Ioc 0 hi, g (a (i - 1)) := by
  suffices h : (∀ k, k ≤ 0 → (shift cell hi a (fun x m => m + g x) m).val.1 k = a k) ∧
      (shift cell hi a (fun x m => m + g x) m).val.2 =
        m + ∑ i ∈ Finset.Ioc 0 hi, g (a (i - 1)) from h.2
  apply foldDown_rule (fun i (st : (Int → α) × M) => (∀ k, k ≤ i → st.1 k = a k) ∧
    st.2 = m + ∑ j ∈ Finset.Ioc i hi, g (a (j - 1)))
  · omega
  · exact ⟨fun _ _ => rfl, by simp⟩
  · rintro i ⟨b, acc⟩ hlo hi' ⟨hsame, hacc⟩
    dsimp only at hsame hacc
    simp only [val_bind, val_pure]
    constructor
    · -- the cells below `i` have not been written yet
      intro k hk
      rw [Function.update_of_ne (by omega), hsame k (by omega)]
    · rw [hacc, hsame (i - 1) (by omega), ← Finset.insert_Ioc_left_eq_Ioc_sub_one hi',
        Finset.sum_insert (by simp), add_assoc, add_comm (∑ j ∈ Finset.Ioc i hi, g (a (j - 1)))]

end Shift

/-! ## Runs -/

section Runs

variable {ι σ α : Type} (step : ι → σ → σ) (get : σ → Int → α) (records : ι → Bool)

/-- The values recorded in the course of a run, the latest one first. -/
def recorded : σ → List ι → List α
  | _, [] => []
  | s, x :: xs => recorded (step x s) xs ++ if records x then [get (step x s) 0] else []

/-- A call that records shifts the array by one; the others leave it alone. -/
structure Shifts (size : Int) : Prop where
  newest : ∀ x s, records x = true → get (step x s) 1 = get (step x s) 0
  older : ∀ x s, records x = true → ∀ k, 2 ≤ k → k < size → get (step x s) k = get s (k - 1)
  keeps : ∀ x s, records x = false → get (step x s) = get s

/-- A call that records writes cell 0 and then shifts the cells up to `hi`. -/
theorem Shifts.of_cells {size : Int} (hi : Int) (hsize : size ≤ hi + 1) (hhi : 1 ≤ hi)
    (hcell : ∀ x s, records x = true → ∃ newest : Int → α, (∀ k, k ≠ 0 → newest k = get s k) ∧
      ∀ k, get (step x s) k = if 1 ≤ k ∧ k ≤ hi then newest (k - 1) else newest k)
    (hkeeps : ∀ x s, records x = false → get (step x s) = get s) :
    Shifts step get records size where
  newest := by
    intro x s hx
    obtain ⟨newest, -, hshift⟩ := hcell x s hx
    rw [hshift, hshift, if_pos ⟨le_rfl, hhi⟩, if_neg (by omega), sub_self]
  older := by
    intro x s hx k hlo hk
    obtain ⟨newest, hsame, hshift⟩ := hcell x s hx
    rw [hshift, if_pos (by omega), hsame (k - 1) (by omega)]
  keeps := hkeeps

/-- Cell `k` holds the value recorded `k - 1` calls ago, or what the array held
before the run if there were fewer. -/
theorem run_history {size : Int} (h : Shifts step get records size) (s : σ) (xs : List ι) {k : Int}
    (hlo : 1 ≤ k) (hhi : k < size) :
    get (run step s xs) k = (recorded step get records s xs)[(k - 1).toNat]?.getD
      (get s (k - (recorded step get records s xs).length)) := by
  induction xs generalizing s with
  | nil => simp [recorded]
  | cons x xs ih =>
      rw [run_cons, ih]
      cases hx : records x with
      | false => simp [recorded, hx, h.keeps x s hx]
      | true =>
          simp only [recorded, hx, if_true, List.length_append, List.length_singleton]
          generalize recorded step get records (step x s) xs = later
          rcases lt_trichotomy (k - 1).toNat later.length with hlt | heq | hgt
          · -- recorded after this call
            rw [List.getElem?_append_left hlt, List.getElem?_eq_getElem hlt]
            rfl
          · -- the value of this call
            have hone : k - later.length = 1 := by omega
            rw [List.getElem?_append_right heq.ge, List.getElem?_eq_none heq.ge, heq, hone]
            simpa using h.newest x s hx
          · -- recorded before this call
            have holder := h.older x s hx (k - later.length) (by omega) (by omega)
            have hnone : [get (step x s) 0][(k - 1).toNat - later.length]? = none :=
              List.getElem?_eq_none (by simp only [List.length_singleton]; omega)
            rw [List.getElem?_append_right hgt.le, List.getElem?_eq_none hgt.le, hnone,
              Option.getD_none, Option.getD_none, holder]
            congr 1
            push_cast
            ring

/-- Where every call records a value of its own, the record is that of the inputs. -/
theorem recorded_eq_map (mark : ι → α) (hrecords : ∀ x, records x = true)
    (hmark : ∀ x s, get (step x s) 0 = mark x) (s : σ) (xs : List ι) :
    recorded step get records s xs = (xs.map mark).reverse := by
  induction xs generalizing s with
  | nil => rfl
  | cons x xs ih => rw [recorded, ih, hrecords, if_pos rfl, hmark, List.map_cons, List.reverse_cons]

end Runs

/-! ## Windows -/

/-- The cells before the last one, counted from 0. -/
theorem sum_cells {M : Type} [AddCommMonoid M] (f : Int → M) (n : Nat) :
    ∑ i ∈ Finset.Ioc 0 (n : Int), f (i - 1) = ∑ k ∈ Finset.range n, f k := by
  symm
  apply Finset.sum_bij fun (k : Nat) _ => (k : Int) + 1
  · intro k hk
    simp only [Finset.mem_range] at hk
    simp only [Finset.mem_Ioc]
    omega
  · intro k _ l _ h
    omega
  · intro i hi
    simp only [Finset.mem_Ioc] at hi
    exact ⟨(i - 1).toNat, by simp only [Finset.mem_range]; omega, by omega⟩
  · intro k _
    rw [Int.add_sub_cancel]

/-- The terms of the first `n` entries of a list, for an array that holds the list
from cell 0 on and a value without a term behind it. -/
theorem sum_window {α M : Type} [AddCommMonoid M] (g : α → M) {z : α} (hz : g z = 0) (xs : List α)
    (n : Nat) : ∑ k ∈ Finset.range n, g (xs[k]?.getD z) = ((xs.take n).map g).sum := by
  induction xs generalizing n with
  | nil => simp [hz]
  | cons x xs ih =>
      cases n with
      | zero => rfl
      | succ n =>
          rw [Finset.sum_range_succ', List.take_succ_cons, List.map_cons, List.sum_cons, ← ih,
            add_comm]
          simp

end Imperative
