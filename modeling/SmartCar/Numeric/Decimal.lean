import Mathlib.Algebra.Field.Basic
import Mathlib.Data.Nat.Digits.Defs
import Mathlib.Tactic.FieldSimp
import Mathlib.Tactic.Ring

/-!
# Decimal numerals

A row of decimal digits, the highest first, as a number. The two folds are the
usual ways to read such a row from left to right: as an integer, and as a
fraction with a place value that grows by ten.
-/

namespace Numeric

def ofDecimals (ds : List Nat) : Nat := Nat.ofDigits 10 ds.reverse

@[simp] theorem ofDecimals_nil : ofDecimals [] = 0 := rfl

theorem ofDecimals_cons (d : Nat) (ds : List Nat) :
    ofDecimals (d :: ds) = d * 10 ^ ds.length + ofDecimals ds := by
  rw [ofDecimals, ofDecimals, List.reverse_cons, Nat.ofDigits_append, Nat.ofDigits_singleton,
    List.length_reverse, Nat.mul_comm]
  exact Nat.add_comm _ _

/-- Reading an integer, from the number `x` of the digits read before. -/
theorem foldl_decimals {R : Type} [CommSemiring R] (x : R) (ds : List Nat) :
    ds.foldl (fun (x : R) (d : Nat) => x * 10 + d) x =
      x * 10 ^ ds.length + (ofDecimals ds : R) := by
  induction ds generalizing x with
  | nil => simp
  | cons d ds ih =>
      rw [List.foldl_cons, ih, ofDecimals_cons, List.length_cons]
      push_cast
      ring

/-- Reading a fraction whose next digit is divided by `place`. -/
theorem foldl_fraction {K : Type} [Field K] [CharZero K] (x place : K) (hplace : place ≠ 0)
    (ds : List Nat) :
    ds.foldl (fun (s : K × K) (d : Nat) => (s.1 + d / s.2, s.2 * 10)) (x, place) =
      (x + (ofDecimals ds : K) * 10 / (place * 10 ^ ds.length), place * 10 ^ ds.length) := by
  induction ds generalizing x place with
  | nil => simp
  | cons d ds ih =>
      rw [List.foldl_cons, ih _ _ (mul_ne_zero hplace (by norm_num)), ofDecimals_cons,
        List.length_cons]
      refine Prod.ext ?_ ?_
      · push_cast
        field_simp
        ring
      · dsimp only
        ring

end Numeric
