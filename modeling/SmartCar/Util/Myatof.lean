import Mathlib.Algebra.Order.Ring.Rat
import Mathlib.Data.List.TakeWhile
import SmartCar.Imperative.While
import SmartCar.Numeric.Decimal

/-!
# Decimal literals

`myatof` of `util.c`, which reads the parameters of the shell commands, against
the numbers that decimal literals denote. The `double` arithmetic is taken as
exact; the exponent is an `int` of 32 bits that wraps. The two branches for a
signed exponent follow each other and share that exponent, and a digit right
after the `e` is read by neither of them.
-/

namespace SmartCar

open Imperative Numeric

/-! ## The scanner -/

def isDigit (c : UInt8) : Bool := c ≥ '0'.toUInt8 && c ≤ '9'.toUInt8

/-- `s = s * 10.0 + *str - '0'` -/
def integerStep (s : ℚ) (c : UInt8) : ℚ := s * 10 + c.toNat - '0'.toNat

/-- `s = s + (*str - '0') / d; d *= 10.0` -/
def fractionStep (s : ℚ × ℚ) (c : UInt8) : ℚ × ℚ :=
  (s.1 + ((c.toNat : ℚ) - '0'.toNat) / s.2, s.2 * 10)

/-- `jishu = jishu * 10 + *str - '0'` -/
def jishuStep (jishu : Int32) (c : UInt8) : Int32 :=
  jishu * 10 + Int32.ofNat c.toNat - Int32.ofNat '0'.toNat

/-- The branch for a positive exponent; it leaves the counter and the rest of the string. -/
def plusBranch (s : ℚ) (str : List UInt8) : ℚ × Int32 × List UInt8 :=
  if current str = '+'.toUInt8 then
    let (jishu, str) := scanWhile isDigit jishuStep 0 str.tail
    let (s, jishu) := countDown (· * 10) s jishu
    (s, jishu, str)
  else (s, 0, str)

/-- The branch for a negative exponent. -/
def minusBranch (s : ℚ) (jishu : Int32) (str : List UInt8) : ℚ :=
  if current str = '-'.toUInt8 then
    let (jishu, _) := scanWhile isDigit jishuStep jishu str.tail
    (countDown (· / 10) s jishu).1
  else s

/-- The block for scientific notation. -/
def scientific (s : ℚ) (str : List UInt8) : ℚ :=
  if current str = 'e'.toUInt8 ∨ current str = 'E'.toUInt8 then
    let (s, jishu, str) := plusBranch s str.tail
    minusBranch s jishu str
  else s

/-- `myatof` once the spaces and the sign are read. -/
def unsignedAtof (str : List UInt8) : ℚ :=
  let (s, str) := scanWhile (fun c => isDigit c && c != '.'.toUInt8) integerStep 0 str
  let str := if current str = '.'.toUInt8 then str.tail else str
  let ((s, _), str) := scanWhile isDigit fractionStep (s, 10) str
  scientific s str

def myatof (str : List UInt8) : ℚ :=
  let (_, str) := scanWhile (fun c => c == ' '.toUInt8) (fun u _ => u) () str
  let falg := current str == '-'.toUInt8
  let str := if falg then str.tail else str
  if isDigit (current str) then unsignedAtof str * (if falg then -1 else 1) else 0

/-! ## Digits -/

section Digits

variable {σ : Type}

/-- The digits of a row of digit characters. -/
def decimals (cs : List UInt8) : List Nat := cs.map fun c => c.toNat - '0'.toNat

theorem isDigit_iff (c : UInt8) :
    isDigit c = true ↔ '0'.toNat ≤ c.toNat ∧ c.toNat ≤ '9'.toNat := by
  rw [isDigit, Bool.and_eq_true, decide_eq_true_iff, decide_eq_true_iff, ge_iff_le,
    UInt8.le_iff_toNat_le, UInt8.le_iff_toNat_le]
  rfl

theorem ne_of_isDigit {c x : UInt8} (hc : isDigit c = true) (hx : isDigit x = false) : c ≠ x := by
  rintro rfl
  exact absurd hc (by simp [hx])

/-- A fold over digit characters as one over the digits. -/
theorem foldl_decimals_chars {f : σ → UInt8 → σ} {g : σ → Nat → σ}
    (hfg : ∀ s c, isDigit c = true → f s c = g s (c.toNat - '0'.toNat)) {cs : List UInt8}
    (hcs : ∀ c ∈ cs, isDigit c = true) (s : σ) : cs.foldl f s = (decimals cs).foldl g s := by
  induction cs generalizing s with
  | nil => rfl
  | cons c cs ih =>
      rw [List.forall_mem_cons] at hcs
      rw [List.foldl_cons, hfg s c hcs.1, ih hcs.2]
      rfl

theorem cast_digit {c : UInt8} (hc : isDigit c = true) :
    ((c.toNat - '0'.toNat : Nat) : ℚ) = c.toNat - '0'.toNat :=
  Nat.cast_sub ((isDigit_iff c).mp hc).1

theorem integerStep_eq (s : ℚ) (c : UInt8) (hc : isDigit c = true) :
    integerStep s c = s * 10 + (c.toNat - '0'.toNat : Nat) := by
  rw [integerStep, cast_digit hc]
  ring

theorem fractionStep_eq (s : ℚ × ℚ) (c : UInt8) (hc : isDigit c = true) :
    fractionStep s c = (s.1 + (c.toNat - '0'.toNat : Nat) / s.2, s.2 * 10) := by
  rw [fractionStep, cast_digit hc]

theorem jishuStep_eq (jishu : Int32) (c : UInt8) (hc : isDigit c = true) :
    jishuStep jishu c = jishu * 10 + Int32.ofNat (c.toNat - '0'.toNat) := by
  rw [jishuStep, Int32.ofNat_sub _ _ ((isDigit_iff c).mp hc).1, Int32.sub_eq_add_neg,
    Int32.sub_eq_add_neg, Int32.add_assoc]

/-- The exponent of a row of digit characters, as the counter holds it. -/
theorem foldl_jishuStep {cs : List UInt8} (hcs : ∀ c ∈ cs, isDigit c = true) :
    cs.foldl jishuStep 0 = Int32.ofNat (ofDecimals (decimals cs)) := by
  have hhom : ∀ n d : Nat, Int32.ofNat n * 10 + Int32.ofNat d = Int32.ofNat (n * 10 + d) := by
    intro n d
    rw [Int32.ofNat_add, Int32.ofNat_mul]
    rfl
  have hread := foldl_decimals (R := Nat) 0 (decimals cs)
  rw [Nat.zero_mul, Nat.zero_add, Nat.cast_id] at hread
  rw [foldl_decimals_chars (g := fun j d => j * 10 + Int32.ofNat d) jishuStep_eq hcs, ← hread]
  exact List.foldl_hom Int32.ofNat hhom

theorem isDigit_and_not_dot : (fun c => isDigit c && c != '.'.toUInt8) = isDigit := by
  funext c
  by_cases hc : isDigit c = true
  · have hne : c ≠ '.'.toUInt8 := ne_of_isDigit hc (by decide)
    simp [hc, hne]
  · simp [hc]

end Digits

/-! ## The exponent -/

section Branches

/-- The exponent that the second branch reads behind a `-`. -/
def trailing (tail : List UInt8) : Int32 :=
  Int32.ofNat (ofDecimals (decimals (tail.takeWhile isDigit)))

theorem iterate_mul_ten (s : ℚ) (n : Nat) : (· * (10 : ℚ))^[n] s = s * 10 ^ (n : Int) := by
  rw [mul_right_iterate, zpow_natCast]

theorem iterate_div_ten (s : ℚ) (n : Nat) : (· / (10 : ℚ))^[n] s = s * 10 ^ (-n : Int) := by
  simp only [div_eq_mul_inv]
  rw [mul_right_iterate, zpow_neg, zpow_natCast, inv_pow]

theorem scan_trailing (tail : List UInt8) :
    (scanWhile isDigit jishuStep 0 tail).1 = trailing tail := by
  rw [scanWhile_eq]
  exact foldl_jishuStep fun c hc => List.mem_takeWhile_imp hc

theorem plusBranch_of_ne (s : ℚ) {str : List UInt8} (h : current str ≠ '+'.toUInt8) :
    plusBranch s str = (s, 0, str) := if_neg h

theorem minusBranch_of_ne (s : ℚ) (jishu : Int32) {str : List UInt8}
    (h : current str ≠ '-'.toUInt8) : minusBranch s jishu str = s := if_neg h

theorem minusBranch_minus (s : ℚ) {str : List UInt8} (h : current str = '-'.toUInt8) :
    minusBranch s 0 str = s * 10 ^ (-(trailing str.tail).toInt.toNat : Int) := by
  rw [minusBranch, if_pos h]
  change (countDown (· / 10) s (scanWhile isDigit jishuStep 0 str.tail).1).1 = _
  rw [countDown_eq, scan_trailing, iterate_div_ten]

theorem scientific_none (s : ℚ) {tail : List UInt8}
    (hends : current tail ≠ 'e'.toUInt8 ∧ current tail ≠ 'E'.toUInt8) : scientific s tail = s := by
  rw [scientific, if_neg (not_or.mpr hends)]

theorem scientific_letter (s : ℚ) {str : List UInt8}
    (h : current str = 'e'.toUInt8 ∨ current str = 'E'.toUInt8) :
    scientific s str = minusBranch (plusBranch s str.tail).1 (plusBranch s str.tail).2.1
      (plusBranch s str.tail).2.2 := if_pos h

end Branches

end SmartCar
