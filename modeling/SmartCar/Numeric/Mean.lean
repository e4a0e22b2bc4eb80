import Mathlib.Algebra.Order.BigOperators.Group.Finset
import Mathlib.Algebra.BigOperators.Ring.Finset
import Mathlib.Algebra.Order.Field.Basic
import Mathlib.Data.Int.ConditionallyCompleteOrder
import Mathlib.Data.Nat.Sqrt
import Mathlib.Data.Rat.Floor
import Mathlib.Tactic.Linarith

/-!
# Weighted means and conversions to integers

A weighted mean with nonnegative weights lies between two of the values that
carry weight. The conversions from fractions to integers that drop the
fraction, with and without a square root, keep integer bounds.
-/

namespace Numeric

/-! ## Weighted means -/

section Mean

variable {ι K : Type} [Field K] [LinearOrder K] [IsStrictOrderedRing K] {s : Finset ι}
  {w x : ι → K}

omit [IsStrictOrderedRing K] in
theorem mul_mean (hpos : 0 < ∑ i ∈ s, w i) :
    ∑ i ∈ s, (∑ j ∈ s, x j * w j) / (∑ j ∈ s, w j) * w i = ∑ i ∈ s, x i * w i := by
  rw [← Finset.mul_sum, div_mul_cancel₀ _ hpos.ne']

/-- Some value that carries weight is at most the mean. -/
theorem exists_le_mean (hw : ∀ i ∈ s, 0 ≤ w i) (hpos : 0 < ∑ i ∈ s, w i) :
    ∃ i ∈ s, 0 < w i ∧ x i ≤ (∑ j ∈ s, x j * w j) / ∑ j ∈ s, w j := by
  by_contra! hall
  obtain ⟨i, hi, hwi⟩ := Finset.exists_lt_of_sum_lt (f := fun _ => (0 : K)) (by simpa using hpos)
  have hlt : ∑ i ∈ s, (∑ j ∈ s, x j * w j) / (∑ j ∈ s, w j) * w i < ∑ i ∈ s, x i * w i := by
    refine Finset.sum_lt_sum (fun j hj => ?_) ⟨i, hi, ?_⟩
    · rcases (hw j hj).eq_or_lt with hzero | hlt
      · simp [← hzero]
      · exact mul_le_mul_of_nonneg_right (hall j hj hlt).le hlt.le
    · exact mul_lt_mul_of_pos_right (hall i hi hwi) hwi
  exact hlt.ne (mul_mean hpos)

/-- Some value that carries weight is at least the mean. -/
theorem exists_mean_le (hw : ∀ i ∈ s, 0 ≤ w i) (hpos : 0 < ∑ i ∈ s, w i) :
    ∃ i ∈ s, 0 < w i ∧ (∑ j ∈ s, x j * w j) / ∑ j ∈ s, w j ≤ x i := by
  obtain ⟨i, hi, hwi, hle⟩ := exists_le_mean (x := fun i => -x i) hw hpos
  refine ⟨i, hi, hwi, ?_⟩
  simp only [neg_mul, Finset.sum_neg_distrib, neg_div] at hle
  exact neg_le_neg_iff.mp hle

end Mean

/-! ## Conversions -/

section Conversions

variable {q : ℚ}

/-- The integer left when the fraction is dropped. -/
def truncate (q : ℚ) : Int := if 0 ≤ q then ⌊q⌋ else ⌈q⌉

theorem le_truncate {m : Int} (h : (m : ℚ) ≤ q) : m ≤ truncate q := by
  unfold truncate
  split
  next => exact Int.le_floor.mpr h
  next => exact_mod_cast h.trans (Int.le_ceil q)

theorem truncate_le {m : Int} (h : q ≤ m) : truncate q ≤ m := by
  unfold truncate
  split
  next => exact_mod_cast (Int.floor_le q).trans h
  next => exact Int.ceil_le.mpr h

theorem truncate_lt {m : Int} (hm : 0 < m) (h : q < m) : truncate q < m := by
  unfold truncate
  split
  next => exact Int.floor_lt.mpr h
  next hneg =>
    have hle : ⌈q⌉ ≤ 0 := Int.ceil_le.mpr (by exact_mod_cast (not_le.mp hneg).le)
    exact hle.trans_lt hm

theorem truncate_neg (q : ℚ) : truncate (-q) = -truncate q := by
  rcases lt_trichotomy q 0 with hlt | rfl | hgt
  · rw [truncate, truncate, if_pos (by linarith), if_neg (by linarith), Int.floor_neg]
  · simp [truncate]
  · rw [truncate, truncate, if_neg (by linarith), if_pos (by linarith), Int.ceil_neg]

theorem truncate_mono : Monotone truncate := by
  intro p q hpq
  unfold truncate
  split
  next hp =>
    rw [if_pos (hp.trans hpq)]
    exact Int.floor_mono hpq
  next hp =>
    split
    next hq => exact (Int.ceil_le.mpr (by push_cast; linarith)).trans (Int.floor_nonneg.mpr hq)
    next => exact Int.ceil_mono hpq

theorem truncate_eq_zero_iff : truncate q = 0 ↔ -1 < q ∧ q < 1 := by
  unfold truncate
  split
  next hq =>
    rw [Int.floor_eq_zero_iff, Set.mem_Ico]
    exact ⟨fun h => ⟨by linarith, h.2⟩, fun h => ⟨hq, h.2⟩⟩
  next hq =>
    rw [Int.ceil_eq_zero_iff, Set.mem_Ioc]
    exact ⟨fun h => ⟨h.1, by linarith⟩, fun h => ⟨h.1, by linarith⟩⟩

/-- The integer part of the square root. -/
def isqrt (q : ℚ) : Nat := Nat.sqrt ⌊q⌋₊

theorem isqrt_lt {n : Nat} (hn : n ≠ 0) : isqrt q < n ↔ q < (n : ℚ) ^ 2 := by
  rw [isqrt, Nat.sqrt_lt', Nat.floor_lt' (pow_ne_zero 2 hn)]
  norm_cast

end Conversions

end Numeric
