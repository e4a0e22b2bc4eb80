import Mathlib.Tactic.FieldSimp
import Mathlib.Tactic.Linarith
import SmartCar.Distinguish.Histories

/-!
# The speed and the steering error

`velocity_set` lowers the speed with the steering error, on a short straight and in
a curve. On a short straight the error is divided before it is scaled, so the speed
drops in one step at 35. In a curve the result is stored before it is limited, so a
large spread of the two curve speeds wraps.
-/

namespace SmartCar

open Imperative Logged Numeric

/-! ## The branches -/

section Branches

variable {v : Speeds} {s : Lines} {d : Drive} {e : Int}

/-- Neither a loop, a crossing nor a long straight. -/
def PlainRoad (s : Lines) (d : Drive) : Prop :=
  ¬ s.f2.onLoop ∧ s.f2.shiziflag1 ≠ 1 ∧ (judgeStraight s d).longStraightFlag ≠ 1

/-- `velocity_set` takes the branch of a short straight, and the road that the car has
come along does not decide the speed. -/
structure TakesShortStraight (s : Lines) (d : Drive) : Prop where
  road : PlainRoad s d
  short : (judgeStraight s d).shortstraightFlag ≠ 0
  noStraight : ¬ ∀ k, 6 ≤ k → k ≤ 10 → d.roadType k = .longStraight
  noCurve : ¬ ∀ k, 3 ≤ k → k ≤ 5 → d.roadType k = .curve

/-- `velocity_set` takes the branch of a curve, and no long straight lies behind. -/
structure TakesCurve (s : Lines) (d : Drive) : Prop where
  road : PlainRoad s d
  curve : (judgeStraight s d).shortstraightFlag = 0
  noStraight : ¬ ∀ k, 9 ≤ k → k ≤ 13 → d.roadType k = .longStraight

theorem judgeStraight_steer : judgeStraight s { d with steerErrorAve := e } =
    { judgeStraight s d with steerErrorAve := e } := by
  unfold judgeStraight longStraightJudge shortStraightJudge
  dsimp only
  split_ifs <;> rfl

theorem judgeStraight_ave : (judgeStraight s d).steerErrorAve = d.steerErrorAve := by
  unfold judgeStraight longStraightJudge shortStraightJudge
  dsimp only
  split_ifs <;> rfl

/-- The drive in which the speed is chosen. -/
def recordRoad (s : Lines) (d : Drive) (t : RoadType) : Drive :=
  ((judgeStraight s d).record t).val

theorem recordRoad_roadType {t : RoadType} {k : Int} (hk : k ≠ 0) :
    (recordRoad s d t).roadType k = d.roadType k :=
  (Function.update_of_ne hk _ _).trans (judgeStraight_histories.roadType k hk)

theorem recordRoad_ave {t : RoadType} : (recordRoad s d t).steerErrorAve = d.steerErrorAve :=
  judgeStraight_ave

theorem velocitySet_short (h : TakesShortStraight s d) : (velocitySet v s d).val.speedSet =
    max v.sWan1 (toInt16 (shortStraightTaper v d.steerErrorAve)) := by
  have hbranch : (velocitySet v s d).val.speedSet =
      (shortStraightSpeed v (recordRoad s d .shortStraight)).val := by
    have hset : setSpeed v s.f2 (judgeStraight s d) =
        (judgeStraight s d).record .shortStraight >>= fun d =>
          shortStraightSpeed v d >>= fun speedSet => return { d with speedSet } := by
      rw [setSpeed, if_neg h.road.1, if_neg h.road.2.1, if_neg h.road.2.2, if_pos h.short]
    simp only [velocitySet, hset, val_bind, val_pure]
    rfl
  have hstraight : ¬ ((recordRoad s d .shortStraight).roadType 6 = .longStraight ∧
      (recordRoad s d .shortStraight).roadType 7 = .longStraight ∧
      (recordRoad s d .shortStraight).roadType 8 = .longStraight ∧
      (recordRoad s d .shortStraight).roadType 9 = .longStraight ∧
      (recordRoad s d .shortStraight).roadType 10 = .longStraight) := by
    rintro ⟨h₆, h₇, h₈, h₉, h₁₀⟩
    apply h.noStraight
    intro k hlo hhi
    rw [← recordRoad_roadType (s := s) (t := .shortStraight) (by omega)]
    obtain rfl | rfl | rfl | rfl | rfl : k = 6 ∨ k = 7 ∨ k = 8 ∨ k = 9 ∨ k = 10 := by omega
    all_goals assumption
  have hcurve : ¬ ((recordRoad s d .shortStraight).roadType 3 = .curve ∧
      (recordRoad s d .shortStraight).roadType 4 = .curve ∧
      (recordRoad s d .shortStraight).roadType 5 = .curve) := by
    rintro ⟨h₃, h₄, h₅⟩
    apply h.noCurve
    intro k hlo hhi
    rw [← recordRoad_roadType (s := s) (t := .shortStraight) (by omega)]
    obtain rfl | rfl | rfl : k = 3 ∨ k = 4 ∨ k = 5 := by omega
    all_goals assumption
  rw [hbranch]
  simp only [shortStraightSpeed, Drive.roadIs, val_bind, val_ite, val_and, val_read, val_pure,
    Bool.and_eq_true, decide_eq_true_eq, recordRoad_ave]
  rw [if_neg hstraight, if_neg hcurve]
  split <;> omega

theorem velocitySet_curveSpeed (h : TakesCurve s d) :
    (velocitySet v s d).val.speedSet = curveSpeed v d.steerErrorAve := by
  have hbranch : (velocitySet v s d).val.speedSet =
      (setCurveSpeed v (recordRoad s d .curve)).val.speedSet := by
    have hset : setSpeed v s.f2 (judgeStraight s d) =
        (judgeStraight s d).record .curve >>= setCurveSpeed v := by
      rw [setSpeed, if_neg h.road.1, if_neg h.road.2.1, if_neg h.road.2.2,
        if_neg (fun hne => hne h.curve), if_neg h.road.1]
    simp only [velocitySet, hset, val_bind, val_pure]
    rfl
  have hstraight : ¬ ((recordRoad s d .curve).roadType 9 = .longStraight ∧
      (recordRoad s d .curve).roadType 10 = .longStraight ∧
      (recordRoad s d .curve).roadType 11 = .longStraight ∧
      (recordRoad s d .curve).roadType 12 = .longStraight ∧
      (recordRoad s d .curve).roadType 13 = .longStraight) := by
    rintro ⟨h₉, h₁₀, h₁₁, h₁₂, h₁₃⟩
    apply h.noStraight
    intro k hlo hhi
    rw [← recordRoad_roadType (s := s) (t := .curve) (by omega)]
    obtain rfl | rfl | rfl | rfl | rfl : k = 9 ∨ k = 10 ∨ k = 11 ∨ k = 12 ∨ k = 13 := by omega
    all_goals assumption
  rw [hbranch]
  simp only [setCurveSpeed, Drive.roadIs, val_bind, val_ite, val_and, val_read, val_pure,
    Bool.and_eq_true, decide_eq_true_eq, recordRoad_ave]
  rw [if_neg hstraight]

end Branches

/-! ## The two tapers -/

/-- The speeds as they are meant to be set: `int16`, and slower in tighter curves. -/
structure Speeds.Descending (v : Speeds) : Prop where
  nonneg : 0 ≤ v.sWan2
  curve : v.sWan2 ≤ v.sWan1
  straight : v.sWan1 ≤ v.sZhi
  fits : v.sZhi ≤ 32767

def FitsInt16 (x : Int) : Prop := -32768 ≤ x ∧ x ≤ 32767

theorem toInt16_of_fits {x : Int} (h : FitsInt16 x) : toInt16 x = x := by
  obtain ⟨hlo, hhi⟩ := h
  exact Int.bmod_eq_of_le (by norm_num; omega) (by norm_num; omega)

section Tapers

variable {v : Speeds} {e e' : Int}

/-- The speed falls from `s_zhi` to `s_wan1` in proportion to the error. -/
def straightSpeed (v : Speeds) (e : Int) : Int :=
  max v.sWan1 (truncate (v.sZhi - (v.sZhi - v.sWan1) * |(e : ℚ)| / 35))

theorem shortStraightTaper_eq : shortStraightTaper v e =
    v.sZhi - (v.sZhi - v.sWan1) * (|e| / 35) := by
  rw [shortStraightTaper, Int.natCast_natAbs, Int.tdiv_eq_ediv_of_nonneg (abs_nonneg e)]

theorem shortStraightTaper_near (h : |e| < 35) : shortStraightTaper v e = v.sZhi := by
  have hquot : |e| / 35 = 0 := Int.ediv_eq_zero_of_lt (abs_nonneg e) h
  rw [shortStraightTaper_eq, hquot, mul_zero, sub_zero]

theorem shortStraightTaper_far (hv : v.Descending) (hlo : 35 ≤ |e|) (hhi : |e| ≤ 80) :
    FitsInt16 (shortStraightTaper v e) ∧ shortStraightTaper v e ≤ v.sWan1 := by
  obtain ⟨hnonneg, hcurve, hstraight, hfits⟩ := hv
  unfold FitsInt16
  rw [shortStraightTaper_eq]
  obtain hquot | hquot : |e| / 35 = 1 ∨ |e| / 35 = 2 := by omega
  · rw [hquot]
    omega
  · rw [hquot]
    omega

theorem straightSpeed_far (hv : v.Descending) (h : 35 ≤ |e|) : straightSpeed v e = v.sWan1 := by
  apply max_eq_left
  apply truncate_le
  have hspread : (v.sWan1 : ℚ) ≤ v.sZhi := by exact_mod_cast hv.straight
  have herror : (35 : ℚ) ≤ |(e : ℚ)| := by exact_mod_cast h
  have hfall : (v.sZhi - v.sWan1 : ℚ) ≤ (v.sZhi - v.sWan1) * |(e : ℚ)| / 35 := by
    rw [le_div_iff₀ (by norm_num)]
    exact mul_le_mul_of_nonneg_left herror (sub_nonneg.mpr hspread)
  linarith

/-- Below 35 the speed in proportion is `s_zhi` only where nothing is to be taken off. -/
theorem straightSpeed_near (hv : v.Descending) (h : |e| < 35) :
    v.sZhi = straightSpeed v e ↔ e = 0 ∨ v.sZhi = v.sWan1 := by
  obtain ⟨hnonneg, hcurve, hstraight, -⟩ := hv
  constructor
  · intro heq
    by_contra! hne
    have hspread : (v.sWan1 : ℚ) < v.sZhi := by
      exact_mod_cast lt_of_le_of_ne hstraight (Ne.symm hne.2)
    have herror : (0 : ℚ) < |(e : ℚ)| := by
      exact_mod_cast abs_pos.mpr hne.1
    have hfall : (0 : ℚ) < (v.sZhi - v.sWan1) * |(e : ℚ)| / 35 := by
      have hpos : (0 : ℚ) < v.sZhi - v.sWan1 := sub_pos.mpr hspread
      positivity
    -- the speed in proportion is less than `s_zhi`, and so is its integral part
    have htrunc : truncate (v.sZhi - (v.sZhi - v.sWan1) * |(e : ℚ)| / 35) < v.sZhi := by
      apply truncate_lt
      · omega
      · linarith
    unfold straightSpeed at heq
    omega
  · intro hcase
    have hnone : (v.sZhi - v.sWan1 : ℚ) * |(e : ℚ)| / 35 = 0 := by
      rcases hcase with rfl | heq
      · simp
      · rw [heq]
        ring
    have htrunc : truncate (v.sZhi : ℚ) = v.sZhi := le_antisymm (truncate_le le_rfl) (le_truncate le_rfl)
    rw [straightSpeed, hnone, sub_zero, htrunc, max_eq_right hstraight]

theorem curveTaper_eq (hv : v.Descending) :
    curveTaper v e = v.sWan1 - (v.sWan1 - v.sWan2) * (e * e) / 1600 := by
  have hproduct : 0 ≤ (v.sWan1 - v.sWan2) * (e * e) :=
    mul_nonneg (sub_nonneg.mpr hv.curve) (mul_self_nonneg e)
  rw [curveTaper, Int.tdiv_eq_ediv_of_nonneg hproduct]
  rfl

theorem curveTaper_le (hv : v.Descending) : curveTaper v e ≤ v.sWan1 := by
  have hproduct : 0 ≤ (v.sWan1 - v.sWan2) * (e * e) :=
    mul_nonneg (sub_nonneg.mpr hv.curve) (mul_self_nonneg e)
  rw [curveTaper_eq hv]
  omega

theorem curveTaper_fits_iff (hv : v.Descending) : FitsInt16 (curveTaper v e) ↔
    (v.sWan1 - v.sWan2) * e ^ 2 < 1600 * (v.sWan1 + 32769) := by
  have hle := curveTaper_le hv (e := e)
  have hfits := hv.straight.trans hv.fits
  unfold FitsInt16
  rw [pow_two]
  rw [curveTaper_eq hv] at hle ⊢
  omega

theorem curveTaper_anti (hv : v.Descending) (h : |e'| ≤ |e|) : curveTaper v e ≤ curveTaper v e' := by
  have hproduct : (v.sWan1 - v.sWan2) * (e' * e') ≤ (v.sWan1 - v.sWan2) * (e * e) :=
    mul_le_mul_of_nonneg_left (abs_le_iff_mul_self_le.mp h) (sub_nonneg.mpr hv.curve)
  rw [curveTaper_eq hv, curveTaper_eq hv]
  omega

/-- From 40 on all of the spread is taken off. -/
theorem curveTaper_far (hv : v.Descending) (h : 40 ≤ |e|) : curveTaper v e ≤ v.sWan2 := by
  have hsquare : 40 * 40 ≤ e * e := by
    apply abs_le_iff_mul_self_le.mp
    rwa [abs_of_nonneg (by decide)]
  have hproduct : (v.sWan1 - v.sWan2) * (40 * 40) ≤ (v.sWan1 - v.sWan2) * (e * e) :=
    mul_le_mul_of_nonneg_left hsquare (sub_nonneg.mpr hv.curve)
  rw [curveTaper_eq hv]
  omega

end Tapers

/-! ## The speed that is set -/

/-- The speed that a call sets falls with the error as intended, in comparison with
the speeds that the same call sets for smaller errors. -/
structure Tapers (v : Speeds) (s : Lines) (d : Drive) : Prop where
  short : TakesShortStraight s d →
    (velocitySet v s d).val.speedSet = straightSpeed v d.steerErrorAve
  shortFits : TakesShortStraight s d → FitsInt16 (shortStraightTaper v d.steerErrorAve)
  curve : TakesCurve s d → v.sWan2 ≤ (velocitySet v s d).val.speedSet ∧
    (velocitySet v s d).val.speedSet ≤ v.sWan1
  curveStraight : TakesCurve s d → d.steerErrorAve = 0 →
    (velocitySet v s d).val.speedSet = v.sWan1
  curveFar : TakesCurve s d → 40 ≤ |d.steerErrorAve| →
    (velocitySet v s d).val.speedSet = v.sWan2
  curveFits : TakesCurve s d → FitsInt16 (curveTaper v d.steerErrorAve)
  falls : TakesShortStraight s d ∨ TakesCurve s d → ∀ e, |e| ≤ |d.steerErrorAve| →
    (velocitySet v s d).val.speedSet ≤
      (velocitySet v s { d with steerErrorAve := e }).val.speedSet

section Laws

variable {v : Speeds} {s : Lines} {d : Drive} {e : Int}

theorem takesShortStraight_steer :
    TakesShortStraight s { d with steerErrorAve := e } ↔ TakesShortStraight s d := by
  constructor
  · rintro ⟨hroad, hshort, hstraight, hcurve⟩
    rw [PlainRoad, judgeStraight_steer] at hroad
    rw [judgeStraight_steer] at hshort
    exact ⟨hroad, hshort, hstraight, hcurve⟩
  · rintro ⟨hroad, hshort, hstraight, hcurve⟩
    refine ⟨?_, ?_, hstraight, hcurve⟩
    · rw [PlainRoad, judgeStraight_steer]
      exact hroad
    · rw [judgeStraight_steer]
      exact hshort

theorem takesCurve_steer : TakesCurve s { d with steerErrorAve := e } ↔ TakesCurve s d := by
  constructor
  · rintro ⟨hroad, hcurve, hstraight⟩
    rw [PlainRoad, judgeStraight_steer] at hroad
    rw [judgeStraight_steer] at hcurve
    exact ⟨hroad, hcurve, hstraight⟩
  · rintro ⟨hroad, hcurve, hstraight⟩
    refine ⟨?_, ?_, hstraight⟩
    · rw [PlainRoad, judgeStraight_steer]
      exact hroad
    · rw [judgeStraight_steer]
      exact hcurve

/-- On a short straight the speed has one step, at 35. -/
theorem velocitySet_short_eq (hv : v.Descending) (he : |d.steerErrorAve| ≤ 80)
    (h : TakesShortStraight s d) : (velocitySet v s d).val.speedSet =
      if |d.steerErrorAve| < 35 then v.sZhi else v.sWan1 := by
  have hrange := hv
  obtain ⟨hnonneg, hcurve, hstraight, hfits⟩ := hrange
  rw [velocitySet_short h]
  split
  next hnear =>
    rw [shortStraightTaper_near hnear, toInt16_of_fits ⟨by omega, hfits⟩, max_eq_right hstraight]
  next hfar =>
    obtain ⟨hfit, hle⟩ := shortStraightTaper_far hv (not_lt.mp hfar) he
    rw [toInt16_of_fits hfit, max_eq_left hle]

theorem shortStraight_falls (hv : v.Descending) (he : |d.steerErrorAve| ≤ 80)
    (h : TakesShortStraight s d) (hle : |e| ≤ |d.steerErrorAve|) :
    (velocitySet v s d).val.speedSet ≤
      (velocitySet v s { d with steerErrorAve := e }).val.speedSet := by
  have hstraight := hv.straight
  rw [velocitySet_short_eq hv he h,
    velocitySet_short_eq hv (hle.trans he) (takesShortStraight_steer.mpr h)]
  dsimp only
  split
  next hnear => rw [if_pos (hle.trans_lt hnear)]
  next => split <;> omega

/-- In a curve the limits come after the store, so what wraps is not seen. -/
theorem curveSpeed_range (hv : v.Descending) :
    v.sWan2 ≤ curveSpeed v e ∧ curveSpeed v e ≤ v.sWan1 := by
  have hcurve := hv.curve
  unfold curveSpeed
  dsimp only
  split_ifs <;> omega

theorem curveSpeed_eq (hv : v.Descending) (h : FitsInt16 (curveTaper v e)) :
    curveSpeed v e = max v.sWan2 (curveTaper v e) := by
  have hcurve := hv.curve
  have hle := curveTaper_le hv (e := e)
  unfold curveSpeed
  rw [toInt16_of_fits h]
  dsimp only
  split_ifs <;> omega

/-- The speed falls with the error exactly if an error on a short straight is 0 or at
least 35, or the straight is no faster, and the taper of a curve fits before it is
stored. -/
theorem velocitySet_tapers_iff (hv : v.Descending) (he : |d.steerErrorAve| ≤ 80) :
    Tapers v s d ↔
      (TakesShortStraight s d →
        d.steerErrorAve = 0 ∨ 35 ≤ |d.steerErrorAve| ∨ v.sZhi = v.sWan1) ∧
      (TakesCurve s d →
        (v.sWan1 - v.sWan2) * d.steerErrorAve ^ 2 < 1600 * (v.sWan1 + 32769)) := by
  constructor
  · intro h
    constructor
    · intro hshort
      by_contra! hne
      have hspeed := h.short hshort
      rw [velocitySet_short_eq hv he hshort, if_pos hne.2.1,
        straightSpeed_near hv hne.2.1] at hspeed
      rcases hspeed with hzero | hequal
      · exact hne.1 hzero
      · exact hne.2.2 hequal
    · exact fun hcurve => (curveTaper_fits_iff hv).mp (h.curveFits hcurve)
  · rintro ⟨hshort, hcurve⟩
    have hfits : TakesCurve s d → FitsInt16 (curveTaper v d.steerErrorAve) :=
      fun htakes => (curveTaper_fits_iff hv).mpr (hcurve htakes)
    constructor
    · intro htakes
      rw [velocitySet_short_eq hv he htakes]
      split
      next hnear =>
        rw [straightSpeed_near hv hnear]
        rcases hshort htakes with hzero | hfar | hequal
        · exact Or.inl hzero
        · exact absurd hnear hfar.not_gt
        · exact Or.inr hequal
      next hfar => exact (straightSpeed_far hv (not_lt.mp hfar)).symm
    · intro htakes
      rcases lt_or_ge |d.steerErrorAve| 35 with hnear | hfar
      · have hrange := hv
        obtain ⟨hnonneg, hcurve, hstraight, hfit⟩ := hrange
        rw [shortStraightTaper_near hnear]
        exact ⟨by omega, hfit⟩
      · exact (shortStraightTaper_far hv hfar he).1
    · intro htakes
      rw [velocitySet_curveSpeed htakes]
      exact curveSpeed_range hv
    · intro htakes hzero
      rw [velocitySet_curveSpeed htakes, curveSpeed_eq hv (hfits htakes), curveTaper_eq hv, hzero]
      have hspread := hv.curve
      simp [hspread]
    · intro htakes hfar
      rw [velocitySet_curveSpeed htakes, curveSpeed_eq hv (hfits htakes)]
      exact max_eq_left (curveTaper_far hv hfar)
    · exact hfits
    · rintro (htakes | htakes) e hle
      · exact shortStraight_falls hv he htakes hle
      · have hanti := curveTaper_anti hv hle
        obtain ⟨hlo, -⟩ := hfits htakes
        have hhi := curveTaper_le hv (e := e)
        have hfit : FitsInt16 (curveTaper v e) :=
          ⟨hlo.trans hanti, hhi.trans (hv.straight.trans hv.fits)⟩
        rw [velocitySet_curveSpeed htakes, velocitySet_curveSpeed (takesCurve_steer.mpr htakes),
          curveSpeed_eq hv (hfits htakes), curveSpeed_eq hv hfit]
        exact max_le_max le_rfl hanti

/-! ### A straight off the centre -/

/-- The lines of a short straight whose centre lies at column 128, of which the mean is
exact in any precision. -/
def offCentre : Lines := { Lines.init with
  f1 := { Lines.init.f1 with midline := fun _ => 128 }
  f2 := { Lines.init.f2 with toppoint := 50 } }

/-- The drive after the first call of `compute_error`, which lets the error go to 15. -/
def offCentreDrive : Drive := (computeError offCentre Drive.init).val

theorem offCentreDrive_ave : offCentreDrive.steerErrorAve = 15 := by decide +kernel

theorem offCentre_takesShort : TakesShortStraight offCentre offCentreDrive where
  road := ⟨by decide, by decide, by decide +kernel⟩
  short := by decide +kernel
  noStraight := fun h => absurd (h 6 (by decide) (by decide)) (by decide)
  noCurve := fun h => absurd (h 3 (by decide) (by decide)) (by decide)

theorem initSpeeds_descending : Speeds.init.Descending := by
  constructor <;> decide

/-- With the initial speeds the straight is taken 13 faster than the error calls for. -/
theorem offCentre_tapers_iff : Tapers Speeds.init offCentre offCentreDrive ↔
    (TakesShortStraight offCentre offCentreDrive →
      offCentreDrive.steerErrorAve = 0 ∨ 35 ≤ |offCentreDrive.steerErrorAve| ∨
        Speeds.init.sZhi = Speeds.init.sWan1) ∧
    (TakesCurve offCentre offCentreDrive →
      (Speeds.init.sWan1 - Speeds.init.sWan2) * offCentreDrive.steerErrorAve ^ 2 <
        1600 * (Speeds.init.sWan1 + 32769)) :=
  velocitySet_tapers_iff initSpeeds_descending (by rw [offCentreDrive_ave]; decide)

theorem offCentre_tooFast : ¬ ∀ v s d, v.Descending → |d.steerErrorAve| ≤ 80 → Tapers v s d := by
  intro hclaim
  have he : |offCentreDrive.steerErrorAve| ≤ 80 := by rw [offCentreDrive_ave]; decide
  have htapers := hclaim Speeds.init offCentre offCentreDrive initSpeeds_descending he
  have hspeed := htapers.short offCentre_takesShort
  rw [velocitySet_short_eq initSpeeds_descending he offCentre_takesShort, offCentreDrive_ave,
    if_pos (by decide), straightSpeed_near initSpeeds_descending (by decide)] at hspeed
  exact absurd hspeed (by decide)

end Laws

end SmartCar
