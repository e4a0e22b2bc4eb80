import SmartCar.Util.Myatof

/-!
# Decimal literals

The numbers that decimal literals denote, and for which literals and tails
`myatof` returns them. Every literal without an exponent is read exactly; an
exponent without a sign is ignored, and behind a positive exponent a `-` starts
another one.
-/

namespace SmartCar

open Imperative Numeric

/-! ## Literals -/

inductive ExpSign where
  | unsigned
  | plus
  | minus
deriving DecidableEq

structure Exponent where
  upper : Bool
  sign : ExpSign
  digits : List (Fin 10)
  digits_ne : digits ≠ []

/-- `spaces* '-'? digit+ ('.' digit*)? (('e'|'E') ('+'|'-')? digit+)?` -/
structure DecimalLiteral where
  spaces : Nat
  neg : Bool
  digits : List (Fin 10)
  digits_ne : digits ≠ []
  fraction : Option (List (Fin 10))
  exponent : Option Exponent

def digitChar (d : Fin 10) : UInt8 := UInt8.ofNat ('0'.toNat + d)

def digitsValue (ds : List (Fin 10)) : Nat := ofDecimals (ds.map Fin.val)

def signText (neg : Bool) : List UInt8 := if neg then ['-'.toUInt8] else []

namespace ExpSign

def text : ExpSign → List UInt8
  | unsigned => []
  | plus => ['+'.toUInt8]
  | minus => ['-'.toUInt8]

end ExpSign

namespace Exponent

def text (e : Exponent) : List UInt8 :=
  (if e.upper then 'E'.toUInt8 else 'e'.toUInt8) :: (e.sign.text ++ e.digits.map digitChar)

def value (e : Exponent) : Int :=
  if e.sign = .minus then -(digitsValue e.digits : Int) else digitsValue e.digits

/-- The value is an `int`. -/
def Fits (e : Exponent) : Prop := -2 ^ 31 ≤ e.value ∧ e.value < 2 ^ 31

instance (e : Exponent) : Decidable e.Fits := inferInstanceAs (Decidable (_ ∧ _))

end Exponent

namespace DecimalLiteral

def fractionText (fraction : Option (List (Fin 10))) : List UInt8 :=
  fraction.elim [] fun ds => '.'.toUInt8 :: ds.map digitChar

def exponentText (exponent : Option Exponent) : List UInt8 := exponent.elim [] Exponent.text

variable (lit : DecimalLiteral)

def text : List UInt8 :=
  List.replicate lit.spaces ' '.toUInt8 ++ (signText lit.neg ++ (lit.digits.map digitChar ++
    (fractionText lit.fraction ++ exponentText lit.exponent)))

def mantissa : ℚ :=
  digitsValue lit.digits + lit.fraction.elim 0 fun ds => (digitsValue ds : ℚ) / 10 ^ ds.length

def exponentValue : Int := lit.exponent.elim 0 Exponent.value

/-- The number that the literal denotes. -/
def value : ℚ := (if lit.neg then -1 else 1) * lit.mantissa * 10 ^ lit.exponentValue

/-- The exponent, if there is one, is an `int`. -/
def Fits : Prop := ∀ e ∈ lit.exponent, e.Fits

instance : Decidable lit.Fits := inferInstanceAs (Decidable (∀ e ∈ lit.exponent, e.Fits))

/-- The tail begins with the terminator or a character that cannot extend the literal. -/
def Ends (tail : List UInt8) : Prop :=
  isDigit (current tail) = false ∧
    (lit.exponent = none → current tail ≠ 'e'.toUInt8 ∧ current tail ≠ 'E'.toUInt8 ∧
      (lit.fraction = none → current tail ≠ '.'.toUInt8))

instance (tail : List UInt8) : Decidable (lit.Ends tail) := inferInstanceAs (Decidable (_ ∧ _))

end DecimalLiteral

/-- Spaces, an optional sign and a digit. -/
def StartsNumber (str : List UInt8) : Prop :=
  ∃ spaces neg d rest,
    str = List.replicate spaces ' '.toUInt8 ++ (signText neg ++ digitChar d :: rest)

/-! ## Digits -/

section Digits

@[simp] theorem isDigit_digitChar (d : Fin 10) : isDigit (digitChar d) = true := by
  revert d
  decide

theorem toNat_digitChar (d : Fin 10) : (digitChar d).toNat - '0'.toNat = d := by
  revert d
  decide

theorem decimals_digitChar (ds : List (Fin 10)) :
    decimals (ds.map digitChar) = ds.map Fin.val := by
  rw [decimals, List.map_map]
  exact List.map_congr_left fun d _ => toNat_digitChar d

/-- A scan over the digits of a literal. -/
theorem scan_digits {f : σ → UInt8 → σ} (g : σ → Nat → σ)
    (hfg : ∀ s c, isDigit c = true → f s c = g s (c.toNat - '0'.toNat)) (s : σ)
    (ds : List (Fin 10)) {tail : List UInt8} (hstop : isDigit (current tail) = false) :
    scanWhile isDigit f s (ds.map digitChar ++ tail) = ((ds.map Fin.val).foldl g s, tail) := by
  have hds : ∀ c ∈ ds.map digitChar, isDigit c = true := by simp
  rw [scanWhile_append hds hstop, foldl_decimals_chars hfg hds, decimals_digitChar]

end Digits

/-! ## The mantissa -/

section Mantissa

theorem current_text (e : Exponent) (tail : List UInt8) :
    current (e.text ++ tail) = if e.upper then 'E'.toUInt8 else 'e'.toUInt8 := rfl

/-- No digit follows the mantissa. -/
theorem current_exponentText (e : Option Exponent) {tail : List UInt8}
    (hstop : isDigit (current tail) = false) :
    isDigit (current (DecimalLiteral.exponentText e ++ tail)) = false := by
  cases e with
  | none => exact hstop
  | some e =>
      rw [DecimalLiteral.exponentText, Option.elim_some, current_text]
      split <;> decide

theorem current_fractionText (fraction : Option (List (Fin 10))) {tail : List UInt8}
    (hstop : isDigit (current tail) = false) :
    isDigit (current (DecimalLiteral.fractionText fraction ++ tail)) = false := by
  cases fraction with
  | none => exact hstop
  | some ds => rfl

theorem read_integer (ds : List (Fin 10)) {tail : List UInt8}
    (hstop : isDigit (current tail) = false) :
    scanWhile (fun c => isDigit c && c != '.'.toUInt8) integerStep 0 (ds.map digitChar ++ tail) =
      ((digitsValue ds : ℚ), tail) := by
  rw [isDigit_and_not_dot, scan_digits (fun (s : ℚ) d => s * 10 + d) integerStep_eq 0 ds hstop,
    foldl_decimals]
  simp [digitsValue]

theorem read_fraction (s : ℚ) (fraction : Option (List (Fin 10))) {tail : List UInt8}
    (hstop : isDigit (current tail) = false)
    (hdot : fraction = none → current tail ≠ '.'.toUInt8) :
    ∃ d, scanWhile isDigit fractionStep (s, 10)
        (if current (DecimalLiteral.fractionText fraction ++ tail) = '.'.toUInt8
          then (DecimalLiteral.fractionText fraction ++ tail).tail
          else DecimalLiteral.fractionText fraction ++ tail) =
      ((s + fraction.elim 0 fun ds => (digitsValue ds : ℚ) / 10 ^ ds.length, d), tail) := by
  cases fraction with
  | none =>
      refine ⟨10, ?_⟩
      change scanWhile isDigit fractionStep (s, 10)
        (if current tail = '.'.toUInt8 then tail.tail else tail) = _
      rw [if_neg (hdot rfl), scanWhile_of_stop hstop]
      simp
  | some ds =>
      refine ⟨10 * 10 ^ ds.length, ?_⟩
      change scanWhile isDigit fractionStep (s, 10) (ds.map digitChar ++ tail) = _
      rw [scan_digits (fun (s : ℚ × ℚ) d => (s.1 + d / s.2, s.2 * 10)) fractionStep_eq (s, 10) ds
        hstop, foldl_fraction s 10 (by norm_num)]
      simp [digitsValue, mul_div_mul_left, mul_comm]

theorem unsignedAtof_text (lit : DecimalLiteral) {tail : List UInt8} (hends : lit.Ends tail) :
    unsignedAtof (lit.digits.map digitChar ++ (DecimalLiteral.fractionText lit.fraction ++
        (DecimalLiteral.exponentText lit.exponent ++ tail))) =
      scientific lit.mantissa (DecimalLiteral.exponentText lit.exponent ++ tail) := by
  obtain ⟨hstop, hnone⟩ := hends
  have hexp := current_exponentText lit.exponent hstop
  have hdot : lit.fraction = none →
      current (DecimalLiteral.exponentText lit.exponent ++ tail) ≠ '.'.toUInt8 := by
    intro hfraction
    cases hlit : lit.exponent with
    | none => exact (hnone hlit).2.2 hfraction
    | some e =>
        rw [DecimalLiteral.exponentText, Option.elim_some, current_text]
        split <;> decide
  obtain ⟨d, hread⟩ := read_fraction (digitsValue lit.digits) lit.fraction hexp hdot
  unfold unsignedAtof
  rw [read_integer lit.digits (current_fractionText lit.fraction hexp)]
  dsimp only
  rw [hread]
  rfl

end Mantissa

/-! ## The exponent -/

section Scientific

namespace Exponent

/-- The literal is scaled by its exponent: an unsigned one is 0, behind a positive
one no further exponent is read, and a negative one is not the lowest `int`. -/
def Handled (e : Exponent) (tail : List UInt8) : Prop :=
  match e.sign with
  | .unsigned => e.value = 0
  | .plus => current tail = '-'.toUInt8 → trailing tail.tail ≤ 0
  | .minus => e.value ≠ -2 ^ 31

instance (e : Exponent) (tail : List UInt8) : Decidable (e.Handled tail) :=
  match e with
  | ⟨_, .unsigned, _, _⟩ => inferInstanceAs (Decidable (_ = _))
  | ⟨_, .plus, _, _⟩ => inferInstanceAs (Decidable (_ → _))
  | ⟨_, .minus, _, _⟩ => inferInstanceAs (Decidable (_ ≠ _))

/-- The power of ten by which `myatof` scales. -/
def applied (e : Exponent) (tail : List UInt8) : Int :=
  match e.sign with
  | .unsigned => 0
  | .plus => digitsValue e.digits -
      if current tail = '-'.toUInt8 then (trailing tail.tail).toInt.toNat else 0
  | .minus => -((Int32.ofNat (digitsValue e.digits)).toInt.toNat : Int)

end Exponent

theorem scan_jishu (ds : List (Fin 10)) {tail : List UInt8}
    (hstop : isDigit (current tail) = false) :
    scanWhile isDigit jishuStep 0 (ds.map digitChar ++ tail) =
      (Int32.ofNat (digitsValue ds), tail) := by
  have hds : ∀ c ∈ ds.map digitChar, isDigit c = true := by simp
  rw [scanWhile_append hds hstop, foldl_jishuStep hds, decimals_digitChar]
  rfl

/-- The counter of a positive exponent ends at 0. -/
theorem plusBranch_plus (s : ℚ) {ds : List (Fin 10)} (hfits : digitsValue ds < 2 ^ 31)
    {tail : List UInt8} (hstop : isDigit (current tail) = false) :
    plusBranch s ('+'.toUInt8 :: (ds.map digitChar ++ tail)) =
      (s * 10 ^ (digitsValue ds : Int), 0, tail) := by
  have hvalue := Int32.toInt_ofNat_of_lt hfits
  have hzero : (if 0 < Int32.ofNat (digitsValue ds) then 0 else Int32.ofNat (digitsValue ds)) =
      (0 : Int32) := by
    split
    next hpos => rfl
    next hpos =>
      rw [Int32.lt_iff_toInt_lt, hvalue] at hpos
      change ¬ (0 : Int) < _ at hpos
      apply Int32.toInt_inj.mp
      rw [hvalue]
      change _ = (0 : Int)
      omega
  rw [plusBranch, if_pos (current_cons _ _), List.tail_cons, scan_jishu ds hstop]
  dsimp only
  rw [countDown_eq, hzero, hvalue, iterate_mul_ten]
  rfl

/-- The digits decide the branch: a digit is no sign. -/
theorem current_digits {ds : List (Fin 10)} (hds : ds ≠ []) (tail : List UInt8) :
    isDigit (current (ds.map digitChar ++ tail)) = true := by
  cases ds with
  | nil => exact absurd rfl hds
  | cons d ds => exact isDigit_digitChar d

theorem toInt_ofNat_digits {n : Nat} (h : n < 2 ^ 31) : (Int32.ofNat n).toInt.toNat = n := by
  rw [Int32.toInt_ofNat_of_lt h]
  rfl

/-- The two branches together, on the text of an exponent. -/
theorem scientific_some (s : ℚ) (e : Exponent) (hfits : e.Fits) {tail : List UInt8}
    (hstop : isDigit (current tail) = false) :
    scientific s (e.text ++ tail) = s * 10 ^ e.applied tail := by
  have hletter : current (e.text ++ tail) = 'e'.toUInt8 ∨
      current (e.text ++ tail) = 'E'.toUInt8 := by
    rw [current_text]
    split <;> simp
  rw [scientific_letter s hletter]
  obtain ⟨upper, sign, ds, hds⟩ := e
  cases sign with
  | unsigned =>
      have hdigit := current_digits hds tail
      have hplus : current (ds.map digitChar ++ tail) ≠ '+'.toUInt8 :=
        ne_of_isDigit hdigit (by decide)
      have hminus : current (ds.map digitChar ++ tail) ≠ '-'.toUInt8 :=
        ne_of_isDigit hdigit (by decide)
      have hread : plusBranch s (Exponent.text ⟨upper, .unsigned, ds, hds⟩ ++ tail).tail =
          (s, 0, ds.map digitChar ++ tail) := plusBranch_of_ne s hplus
      rw [hread]
      exact (minusBranch_of_ne s 0 hminus).trans (mul_one s).symm
  | plus =>
      have hlt : digitsValue ds < 2 ^ 31 := by
        have := hfits.2
        simp only [Exponent.value, reduceCtorEq, if_false] at this
        omega
      have hread : plusBranch s (Exponent.text ⟨upper, .plus, ds, hds⟩ ++ tail).tail =
          (s * 10 ^ (digitsValue ds : Int), 0, tail) := plusBranch_plus s hlt hstop
      rw [hread]
      dsimp only [Exponent.applied]
      split
      next hminus =>
        rw [minusBranch_minus _ hminus, mul_assoc, ← zpow_add₀ (by norm_num), sub_eq_add_neg]
      next hminus =>
        rw [minusBranch_of_ne _ _ hminus, Nat.cast_zero, sub_zero]
  | minus =>
      have hplus : current ('-'.toUInt8 :: (ds.map digitChar ++ tail)) ≠ '+'.toUInt8 := by
        rw [current_cons]
        decide
      have hread : plusBranch s (Exponent.text ⟨upper, .minus, ds, hds⟩ ++ tail).tail =
          (s, 0, '-'.toUInt8 :: (ds.map digitChar ++ tail)) := plusBranch_of_ne s hplus
      rw [hread]
      dsimp only [Exponent.applied]
      rw [minusBranch_minus s rfl, List.tail_cons, ← scan_trailing, scan_jishu ds hstop]

theorem applied_eq_value_iff (e : Exponent) (hfits : e.Fits) (tail : List UInt8) :
    e.applied tail = e.value ↔ e.Handled tail := by
  obtain ⟨upper, sign, ds, hds⟩ := e
  obtain ⟨hlow, hhigh⟩ := hfits
  cases sign with
  | unsigned => exact eq_comm
  | plus =>
      simp only [Exponent.applied, Exponent.value, Exponent.Handled, reduceCtorEq, if_false,
        Int32.le_iff_toInt_le]
      change _ ↔ (_ → _ ≤ (0 : Int))
      split
      next hminus => simp only [hminus, forall_const]; omega
      next hminus => simp [hminus]
  | minus =>
      simp only [Exponent.applied, Exponent.value, Exponent.Handled, if_true] at hlow hhigh ⊢
      by_cases hlt : digitsValue ds < 2 ^ 31
      · rw [toInt_ofNat_digits hlt]
        refine iff_of_true rfl ?_
        omega
      · obtain hlast : digitsValue ds = 2 ^ 31 := by omega
        rw [hlast]
        decide

end Scientific

/-! ## Whole strings -/

section Strings

theorem skip_spaces (spaces : Nat) {str : List UInt8} (h : current str ≠ ' '.toUInt8) :
    scanWhile (fun c => c == ' '.toUInt8) (fun u _ => u) ()
      (List.replicate spaces ' '.toUInt8 ++ str) = ((), str) := by
  refine scanWhile_append (fun c hc => ?_) (by simpa using h)
  rw [List.eq_of_mem_replicate hc]
  rfl

theorem myatof_signed (spaces : Nat) (neg : Bool) {str : List UInt8}
    (hdigit : isDigit (current str) = true) :
    myatof (List.replicate spaces ' '.toUInt8 ++ (signText neg ++ str)) =
      unsignedAtof str * (if neg then -1 else 1) := by
  have hspace : current (signText neg ++ str) ≠ ' '.toUInt8 := by
    cases neg with
    | true => exact of_decide_eq_false rfl
    | false => exact ne_of_isDigit hdigit (by decide)
  rw [myatof, skip_spaces spaces hspace]
  dsimp only
  cases neg with
  | true =>
      change (if isDigit (current str) then _ else _) = _
      rw [if_pos hdigit]
      rfl
  | false =>
      have hminus : (current str == '-'.toUInt8) = false :=
        beq_eq_false_iff_ne.mpr (ne_of_isDigit hdigit (by decide))
      change (let falg := current str == '-'.toUInt8
        let str := if falg then str.tail else str
        if isDigit (current str) then unsignedAtof str * (if falg then -1 else 1) else 0) = _
      rw [hminus]
      exact if_pos hdigit

namespace DecimalLiteral

/-- Nothing is left to scale, or the exponent is read in full. -/
def Handled (lit : DecimalLiteral) (tail : List UInt8) : Prop :=
  lit.mantissa = 0 ∨ ∀ e ∈ lit.exponent, e.Handled tail

instance (lit : DecimalLiteral) (tail : List UInt8) : Decidable (lit.Handled tail) :=
  inferInstanceAs (Decidable (_ ∨ ∀ e ∈ lit.exponent, _))

/-- What `myatof` makes of a literal, for the exponent that it applies. -/
theorem myatof_text {lit : DecimalLiteral} (hfits : lit.Fits) {tail : List UInt8}
    (hends : lit.Ends tail) :
    myatof (lit.text ++ tail) = (if lit.neg then -1 else 1) * lit.mantissa *
      10 ^ (lit.exponent.elim 0 fun e => e.applied tail) := by
  have hdigit : isDigit (current (lit.digits.map digitChar ++
      (fractionText lit.fraction ++ (exponentText lit.exponent ++ tail)))) = true :=
    current_digits lit.digits_ne _
  rw [text]
  simp only [List.append_assoc]
  rw [myatof_signed lit.spaces lit.neg hdigit, unsignedAtof_text lit hends]
  cases hexp : lit.exponent with
  | none =>
      obtain ⟨he, hE, -⟩ := hends.2 hexp
      have hnone : scientific lit.mantissa tail = lit.mantissa := scientific_none _ ⟨he, hE⟩
      change scientific lit.mantissa tail * _ = _ * 10 ^ (0 : Int)
      rw [hnone]
      ring
  | some e =>
      change scientific lit.mantissa (e.text ++ tail) * _ = _ * 10 ^ e.applied tail
      rw [scientific_some lit.mantissa e (hfits e hexp) hends.1]
      ring

theorem myatof_eq_value_iff {lit : DecimalLiteral} (hfits : lit.Fits) {tail : List UInt8}
    (hends : lit.Ends tail) : myatof (lit.text ++ tail) = lit.value ↔ lit.Handled tail := by
  have hsign : (if lit.neg then -1 else 1 : ℚ) ≠ 0 := by
    split <;> norm_num
  rw [myatof_text hfits hends, value, exponentValue, mul_assoc, mul_assoc,
    mul_right_inj' hsign, mul_eq_mul_left_iff, or_comm, Handled,
    zpow_right_inj₀ (by norm_num) (by norm_num)]
  refine or_congr Iff.rfl ?_
  cases hexp : lit.exponent with
  | none => simp
  | some e =>
      rw [Option.elim_some, Option.elim_some, applied_eq_value_iff e (hfits e hexp)]
      simp

end DecimalLiteral

/-- A string that begins with a digit, spelled with the digit. -/
theorem exists_digitChar {str : List UInt8} (h : isDigit (current str) = true) :
    ∃ d rest, str = digitChar d :: rest := by
  cases str with
  | nil => exact absurd h (by decide)
  | cons c rest =>
      obtain ⟨hlow, hhigh⟩ := (isDigit_iff c).mp h
      have hlt : c.toNat - '0'.toNat < 10 :=
        Nat.sub_lt_left_of_lt_add hlow (Nat.lt_succ_of_le hhigh)
      refine ⟨⟨c.toNat - '0'.toNat, hlt⟩, rest, ?_⟩
      rw [digitChar, Nat.add_sub_cancel' hlow, UInt8.ofNat_toNat]

theorem exists_spaces (str : List UInt8) : ∃ spaces,
    str = List.replicate spaces ' '.toUInt8 ++ str.dropWhile fun c => c == ' '.toUInt8 := by
  refine ⟨(str.takeWhile fun c => c == ' '.toUInt8).length, ?_⟩
  have hspaces : str.takeWhile (fun c => c == ' '.toUInt8) =
      List.replicate (str.takeWhile fun c => c == ' '.toUInt8).length ' '.toUInt8 :=
    List.eq_replicate_iff.mpr ⟨rfl, fun c hc => by simpa using List.mem_takeWhile_imp hc⟩
  rw [← hspaces, List.takeWhile_append_dropWhile]

theorem signText_append (str : List UInt8) : str = signText (current str == '-'.toUInt8) ++
    if current str == '-'.toUInt8 then str.tail else str := by
  cases str with
  | nil => rfl
  | cons c str =>
      rw [current_cons]
      by_cases hc : c = '-'.toUInt8
      · subst hc
        rfl
      · rw [beq_eq_false_iff_ne.mpr hc]
        rfl

theorem myatof_eq_zero {str : List UInt8} (h : ¬ StartsNumber str) : myatof str = 0 := by
  obtain ⟨spaces, hspaces⟩ := exists_spaces str
  rw [myatof, scanWhile_eq]
  dsimp only
  -- a digit behind the spaces and the sign would make it a number
  refine if_neg fun hdigit => h ?_
  obtain ⟨d, rest, hrest⟩ := exists_digitChar hdigit
  refine ⟨spaces, current (str.dropWhile fun c => c == ' '.toUInt8) == '-'.toUInt8, d, rest, ?_⟩
  rw [← hrest, ← signText_append]
  exact hspaces

end Strings

/-! ## Exactness -/

/-- However a string is read as a literal and a tail, `myatof` returns the number
that the literal denotes exactly if its exponent is handled; for a string without
a number it returns 0. -/
theorem myatof_exact_iff (str : List UInt8) :
    (∀ (lit : DecimalLiteral) (tail : List UInt8), str = lit.text ++ tail → lit.Fits →
      lit.Ends tail → (myatof str = lit.value ↔ lit.Handled tail)) ∧
    (¬ StartsNumber str → myatof str = 0) := by
  refine ⟨?_, myatof_eq_zero⟩
  rintro lit tail rfl hfits hends
  exact DecimalLiteral.myatof_eq_value_iff hfits hends

/-- The literal `-1.50e-3`, with a space in front. -/
def millis : DecimalLiteral where
  spaces := 1
  neg := true
  digits := [1]
  digits_ne := List.cons_ne_nil _ _
  fraction := some [5, 0]
  exponent := some ⟨false, .minus, [3], List.cons_ne_nil _ _⟩

theorem millis_exact : myatof (millis.text ++ [';'.toUInt8]) = millis.value ∧ myatof [] = 0 := by
  have hread := (myatof_exact_iff (millis.text ++ [';'.toUInt8])).1 millis [';'.toUInt8] rfl
    (by decide) (by decide)
  refine ⟨hread.mpr (.inr (by decide)), (myatof_exact_iff []).2 ?_⟩
  rintro ⟨spaces, neg, d, rest, h⟩
  simp at h

/-- The literal `1e5`. -/
def unsignedExponent : DecimalLiteral where
  spaces := 0
  neg := false
  digits := [1]
  digits_ne := List.cons_ne_nil _ _
  fraction := none
  exponent := some ⟨false, .unsigned, [5], List.cons_ne_nil _ _⟩

/-- The exponent without a sign is not read. -/
theorem unsignedExponent_ignored : unsignedExponent.Fits ∧ unsignedExponent.Ends [] ∧
    myatof (unsignedExponent.text ++ []) ≠ unsignedExponent.value :=
  ⟨by decide, by decide, by decide +kernel⟩

end SmartCar
