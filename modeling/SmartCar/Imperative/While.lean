import Mathlib.Algebra.Order.Group.Nat
import Mathlib.Logic.Function.Iterate
import Mathlib.Tactic.Common

/-!
# While loops over strings and counters

A pointer into a C string is the list of the characters that remain before the
terminating 0. `scanWhile p f` is `while (p(*str)) { s = f(s, *str); str++; }`
for a test that the terminator fails, and `countDown f` is
`while (n > 0) { s = f(s); n--; }` with a counter of 32 bits.
-/

namespace Imperative

variable {σ : Type}

/-! ## Strings -/

section Strings

/-- `*str` -/
def current (str : List UInt8) : UInt8 := str.headD 0

@[simp] theorem current_cons (c : UInt8) (str : List UInt8) : current (c :: str) = c := rfl

def scanWhile (p : UInt8 → Bool) (f : σ → UInt8 → σ) (s : σ) : List UInt8 → σ × List UInt8
  | [] => (s, [])
  | c :: str => if p c then scanWhile p f (f s c) str else (s, c :: str)

variable {p : UInt8 → Bool} {f : σ → UInt8 → σ} {s : σ}

theorem scanWhile_eq (str : List UInt8) :
    scanWhile p f s str = ((str.takeWhile p).foldl f s, str.dropWhile p) := by
  induction str generalizing s with
  | nil => rfl
  | cons c str ih =>
      rw [scanWhile, List.takeWhile_cons, List.dropWhile_cons]
      split
      · rw [ih, List.foldl_cons]
      · rfl

/-- A scan stops at once in front of a character that fails the test. -/
theorem scanWhile_of_stop {str : List UInt8} (hstop : p (current str) = false) :
    scanWhile p f s str = (s, str) := by
  cases str with
  | nil => rfl
  | cons c str =>
      rw [current_cons] at hstop
      rw [scanWhile, hstop]
      rfl

theorem scanWhile_append {xs tail : List UInt8} (hxs : ∀ c ∈ xs, p c = true)
    (hstop : p (current tail) = false) :
    scanWhile p f s (xs ++ tail) = (xs.foldl f s, tail) := by
  induction xs generalizing s with
  | nil => exact scanWhile_of_stop hstop
  | cons c xs ih =>
      rw [List.forall_mem_cons] at hxs
      rw [List.cons_append, scanWhile, if_pos hxs.1, ih hxs.2, List.foldl_cons]

end Strings

/-! ## Counters -/

section Counters

theorem toInt_pred {n : Int32} (h : 0 < n) : (n - 1).toInt = n.toInt - 1 := by
  have hpos : 0 < n.toInt := Int32.lt_iff_toInt_lt.mp h
  have hone : (1 : Int32) ≤ n := Int32.le_iff_toInt_le.mpr hpos
  exact Int32.toInt_sub_of_le n 1 (by decide) hone

theorem toNat_toInt_of_pos {n : Int32} (h : 0 < n) :
    n.toInt.toNat = (n - 1).toInt.toNat + 1 := by
  have hpos : 0 < n.toInt := Int32.lt_iff_toInt_lt.mp h
  have hpred := toInt_pred h
  omega

def countDown (f : σ → σ) (s : σ) (n : Int32) : σ × Int32 :=
  if h : 0 < n then countDown f (f s) (n - 1) else (s, n)
termination_by n.toInt.toNat
decreasing_by exact Nat.lt_of_succ_le (toNat_toInt_of_pos h).ge

/-- A counter that is positive ends at 0, any other one is left as it is. -/
theorem countDown_eq (f : σ → σ) (s : σ) (n : Int32) :
    countDown f s n = (f^[n.toInt.toNat] s, if 0 < n then 0 else n) := by
  induction s, n using countDown.induct f with
  | case1 s n h ih =>
      rw [countDown, dif_pos h, ih, toNat_toInt_of_pos h, Function.iterate_succ_apply, if_pos h]
      split
      next hagain => rfl
      next hend =>
        -- the last round starts at 1
        have hpos : 0 < n.toInt := Int32.lt_iff_toInt_lt.mp h
        have hpred := toInt_pred h
        have hle : (n - 1).toInt ≤ 0 :=
          Int.not_lt.mp fun hlt => hend (Int32.lt_iff_toInt_lt.mpr hlt)
        have hzero : (n - 1).toInt = (0 : Int32).toInt := by
          change (n - 1).toInt = 0
          omega
        rw [Int32.toInt_inj.mp hzero]
  | case2 s n h =>
      have hle : n.toInt ≤ 0 := Int.not_lt.mp fun hlt => h (Int32.lt_iff_toInt_lt.mpr hlt)
      rw [countDown, dif_neg h, if_neg h, Int.toNat_of_nonpos hle]
      rfl

end Counters

end Imperative
