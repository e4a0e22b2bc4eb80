import Mathlib.Algebra.BigOperators.Ring.Finset
import SmartCar.FindLines.Detect

/-!
# The two guards of `find_curve1`

`find_curve1` takes the first row at which one edge is lost and the other one
goes on as a small turn, and then looks at it again. On a crossing it counts the
rows beyond that have lost the other edge, from a start value that nothing has
set. And where a far row shows the view past a crossing, each branch clears the
flag of the turn to the other side, so that the turn it has just set stays.
-/

namespace SmartCar

open Imperative Logged

/-! ## The scan -/

/-- Row `i` is accepted as a small turn: to the left where the left edge is lost, to
the right where only the right edge is lost. -/
def curve1At (f1 : Findline1) (f2 : Findline2) (i : Int) : Logged Access Bool := do
  if ← (f1.lflag i).eq 0 then leftCurve1At f1 f2 i
  else if ← (f1.rflag i).eq 0 then rightCurve1At f1 f2 i
  else return false

/-- The first row accepted by the scan. -/
def curve1Row (f1 : Findline1) (f2 : Findline2) : Option Int :=
  (scanDown 115 (f2.toppoint + 3) (curve1At f1 f2)).val

/-- What `find_curve1` does at an accepted row. -/
def takeCurve1 (loseCnt : Int) (f1 : Findline1) (f2 : Findline2) (i : Int) : Findline2 :=
  if f1.leftlineflag i = 0 then (takeLeftCurve1 loseCnt f1 i f2).val
  else (takeRightCurve1 loseCnt f1 i f2).val

/-- The scan accepts a left turn at row `r`. -/
def LeftTurnFound (f1 : Findline1) (f2 : Findline2) (r : Int) : Prop :=
  curve1Row f1 f2 = some r ∧ f1.leftlineflag r = 0

/-- The scan accepts a right turn at row `r`. -/
def RightTurnFound (f1 : Findline1) (f2 : Findline2) (r : Int) : Prop :=
  curve1Row f1 f2 = some r ∧ f1.leftlineflag r ≠ 0

section Scan

variable {f1 : Findline1} {f2 : Findline2} {r v : Int}

theorem findCurve1_val (v : Int) (f1 : Findline1) (f2 : Findline2) :
    (findCurve1 v f1 f2).val = (curve1Row f1 f2).elim f2 (takeCurve1 v f1 f2) := by
  refine forDown_scan (curve1At f1 f2) fun i _ _ => ?_
  simp only [curve1At, takeCurve1, val_bind, val_ite, val_eq, val_ofNat, lflag_val, rflag_val,
    val_pure, decide_eq_true_eq]
  split
  next => rfl
  next =>
    split
    next => rfl
    next => rfl

theorem LeftTurnFound.result (h : LeftTurnFound f1 f2 r) (v : Int) :
    (findCurve1 v f1 f2).val = (takeLeftCurve1 v f1 r f2).val := by
  rw [findCurve1_val, h.1, Option.elim_some, takeCurve1, if_pos h.2]

theorem RightTurnFound.result (h : RightTurnFound f1 f2 r) (v : Int) :
    (findCurve1 v f1 f2).val = (takeRightCurve1 v f1 r f2).val := by
  rw [findCurve1_val, h.1, Option.elim_some, takeCurve1, if_neg h.2]

end Scan

/-! ## The cross guard -/

section CrossGuard

variable {f1 : Findline1} {f2 : Findline2} {r v : Int}

/-- The rows from `r` to the far end that have lost an edge. -/
noncomputable def lostRows (flag : Int → Int) (toppoint r : Int) : Finset Int :=
  (Finset.Ioc toppoint r).filter fun i => flag i = 0

/-- The loop of the guard adds the number of lost rows to its start value. -/
theorem countLost_val {flag : Int → Logged Access Int} {toppoint : Int} :
    (countLost flag r toppoint v).val = v + (lostRows (fun i => (flag i).val) toppoint r).card := by
  rw [lostRows, Finset.natCast_card_filter]
  apply foldDown_sum
  intro i lose _ _
  simp only [val_bind, val_eq, val_ofNat, val_ite, val_pure, decide_eq_true_eq]
  split
  next => simp
  next => simp

/-- What the guard makes of a turn at row `r`. -/
def Judged (flag row r : Int) (kept : Prop) : Prop :=
  (flag = 1 ∧ row = r ↔ kept) ∧ (¬ kept → flag = 0 ∧ row = 0)

theorem judged_of_ite {flag row : Int} {c kept : Prop} [Decidable c]
    (hflag : flag = if c then 0 else 1) (hrow : row = if c then 0 else r)
    (hkept : c ↔ ¬ kept) : Judged flag row r kept := by
  by_cases hcancelled : c
  · rw [if_pos hcancelled] at hflag hrow
    exact ⟨iff_of_false (by omega) (hkept.mp hcancelled), fun _ => ⟨hflag, hrow⟩⟩
  · rw [if_neg hcancelled] at hflag hrow
    have hk : kept := by
      by_contra hnot
      exact hcancelled (hkept.mpr hnot)
    exact ⟨iff_of_true ⟨hflag, hrow⟩ hk, fun hnot => absurd hk hnot⟩

/-- On a crossing a left turn is kept exactly if the start value and the number of
rows without the right edge make at most 5 together. -/
theorem takeLeftCurve1_judged (hcross : f2.shiziflag1 = 1) :
    Judged (takeLeftCurve1 v f1 r f2).val.leftturnflag (takeLeftCurve1 v f1 r f2).val.leftturnRow r
      (v + (lostRows f1.rightlineflag f2.toppoint r).card ≤ 5) := by
  have hcount : (countLost f1.rflag r f2.toppoint v).val =
      v + (lostRows f1.rightlineflag f2.toppoint r).card := countLost_val
  apply judged_of_ite (c := v + (lostRows f1.rightlineflag f2.toppoint r).card > 5)
  · simp only [takeLeftCurve1, val_bind, val_onlyIf, val_pure]
    split <;> simp [hcross, hcount] <;> split <;> rfl
  · simp only [takeLeftCurve1, val_bind, val_onlyIf, val_pure]
    split <;> simp [hcross, hcount] <;> split <;> rfl
  · exact not_le.symm

theorem takeRightCurve1_judged (hcross : f2.shiziflag1 = 1) :
    Judged (takeRightCurve1 v f1 r f2).val.rightturnflag
      (takeRightCurve1 v f1 r f2).val.rightturnRow r
      (v + (lostRows f1.leftlineflag f2.toppoint r).card ≤ 5) := by
  have hcount : (countLost f1.lflag r f2.toppoint v).val =
      v + (lostRows f1.leftlineflag f2.toppoint r).card := countLost_val
  apply judged_of_ite (c := v + (lostRows f1.leftlineflag f2.toppoint r).card > 5)
  · simp only [takeRightCurve1, val_bind, val_onlyIf, val_pure]
    split <;> simp [hcross, hcount] <;> split <;> rfl
  · simp only [takeRightCurve1, val_bind, val_onlyIf, val_pure]
    split <;> simp [hcross, hcount] <;> split <;> rfl
  · exact not_le.symm

theorem LeftTurnFound.judged (h : LeftTurnFound f1 f2 r) (hcross : f2.shiziflag1 = 1) (v : Int) :
    Judged (findCurve1 v f1 f2).val.leftturnflag (findCurve1 v f1 f2).val.leftturnRow r
      (v + (lostRows f1.rightlineflag f2.toppoint r).card ≤ 5) := by
  rw [h.result]
  exact takeLeftCurve1_judged hcross

theorem RightTurnFound.judged (h : RightTurnFound f1 f2 r) (hcross : f2.shiziflag1 = 1) (v : Int) :
    Judged (findCurve1 v f1 f2).val.rightturnflag (findCurve1 v f1 f2).val.rightturnRow r
      (v + (lostRows f1.leftlineflag f2.toppoint r).card ≤ 5) := by
  rw [h.result]
  exact takeRightCurve1_judged hcross

/-- The result does not depend on what the uninitialised counter holds, and a turn
is kept exactly if at most 5 rows beyond it have lost the other edge. -/
structure CountsLostRows (f1 : Findline1) (f2 : Findline2) : Prop where
  independent : ∀ v v' : Int32, (findCurve1 v.toInt f1 f2).val = (findCurve1 v'.toInt f1 f2).val
  left : ∀ (v : Int32) r, LeftTurnFound f1 f2 r →
    Judged (findCurve1 v.toInt f1 f2).val.leftturnflag
      (findCurve1 v.toInt f1 f2).val.leftturnRow r
      ((lostRows f1.rightlineflag f2.toppoint r).card ≤ 5)
  right : ∀ (v : Int32) r, RightTurnFound f1 f2 r →
    Judged (findCurve1 v.toInt f1 f2).val.rightturnflag
      (findCurve1 v.toInt f1 f2).val.rightturnRow r
      ((lostRows f1.leftlineflag f2.toppoint r).card ≤ 5)

theorem curve1Row_le (h : curve1Row f1 f2 = some r) : r ≤ 115 := (scanDown_mem h).2.1

theorem card_lostRows_le (flag : Int → Int) {toppoint : Int} (htop : 3 ≤ toppoint) (hr : r ≤ 115) :
    (lostRows flag toppoint r).card ≤ 112 := by
  have hcard : (lostRows flag toppoint r).card ≤ (Finset.Ioc toppoint r).card :=
    Finset.card_filter_le _ _
  rw [Int.card_Ioc] at hcard
  omega

/-- A counter that starts above 5 cancels a turn that one far below 0 keeps. -/
theorem judged_depends {flag flag' row row' lost : Int} (hlo : 0 ≤ lost) (hhi : lost ≤ 112)
    (hhigh : Judged flag row r (6 + lost ≤ 5)) (hlow : Judged flag' row' r (-1000 + lost ≤ 5)) :
    flag ≠ flag' := by
  have hcancelled := (hhigh.2 (by omega)).1
  have hkept := (hlow.1.mpr (by omega)).1
  omega

theorem not_independent (hrow : curve1Row f1 f2 = some r) (htop : 3 ≤ f2.toppoint)
    (hcross : f2.shiziflag1 = 1) :
    (findCurve1 (6 : Int32).toInt f1 f2).val ≠ (findCurve1 (-1000 : Int32).toInt f1 f2).val := by
  have hsix : (6 : Int32).toInt = 6 := by decide
  have hneg : (-1000 : Int32).toInt = -1000 := by decide
  have hr := curve1Row_le hrow
  rw [hsix, hneg]
  intro heq
  by_cases hleft : f1.leftlineflag r = 0
  · have hfound : LeftTurnFound f1 f2 r := ⟨hrow, hleft⟩
    have hcard := card_lostRows_le f1.rightlineflag htop hr
    exact judged_depends (by omega) (by omega) (hfound.judged hcross 6) (hfound.judged hcross (-1000))
      (congrArg Findline2.leftturnflag heq)
  · have hfound : RightTurnFound f1 f2 r := ⟨hrow, hleft⟩
    have hcard := card_lostRows_le f1.leftlineflag htop hr
    exact judged_depends (by omega) (by omega) (hfound.judged hcross 6) (hfound.judged hcross (-1000))
      (congrArg Findline2.rightturnflag heq)

/-- On a crossing the guard counts what it should exactly if the scan accepts no
row, so that it does not count at all. -/
theorem countsLostRows_iff (f1 : Findline1) (f2 : Findline2)
    (htop : 3 ≤ f2.toppoint ∧ f2.toppoint ≤ 118) (hcross : f2.shiziflag1 = 1) :
    CountsLostRows f1 f2 ↔
      ∀ i, f2.toppoint + 3 < i → i ≤ 115 → (curve1At f1 f2 i).val = false := by
  rw [← scanDown_eq_none_iff]
  change CountsLostRows f1 f2 ↔ curve1Row f1 f2 = none
  constructor
  · intro hcounts
    cases hrow : curve1Row f1 f2 with
    | none => rfl
    | some r => exact absurd (hcounts.independent 6 (-1000)) (not_independent hrow htop.1 hcross)
  · intro hnone
    refine ⟨fun v v' => ?_, fun v r hfound => ?_, fun v r hfound => ?_⟩
    · simp only [findCurve1_val, hnone, Option.elim_none]
    · rw [hfound.1] at hnone
      cases hnone
    · rw [hfound.1] at hnone
      cases hnone

/-- The rows of a road whose left edge is lost from row `r` on, and whose right edge
moves outwards from row `m` on. -/
def leftBranch (r m : Int) : Findline1 where
  midline := fun _ => 80
  leftline := fun i => if i ≤ r then 0 else 40
  rightline := fun i => if i ≤ m then 130 else 110
  leftlineflag := fun i => if i ≤ r then 0 else 1
  rightlineflag := fun _ => 1

/-- `f2` as `find_curve1` finds it, with the far end at row 10. -/
def farView (shiziflag1 : Int) : Findline2 :=
  { Lines.init.f2 with toppoint := 10, toppointFlag := 1, shiziflag1 }

theorem leftBranch_accepted : curve1Row (leftBranch 80 0) (farView 1) = some 80 := by
  decide +kernel

/-- A road that branches off to the left at row 80, on a crossing. -/
theorem countsLostRows_iff_leftBranch : CountsLostRows (leftBranch 80 0) (farView 1) ↔
    ∀ i, 13 < i → i ≤ 115 → (curve1At (leftBranch 80 0) (farView 1) i).val = false :=
  countsLostRows_iff (leftBranch 80 0) (farView 1) (by decide) rfl

theorem leftBranch_not_counted : ¬ ∀ f1 f2, 3 ≤ f2.toppoint ∧ f2.toppoint ≤ 118 →
    f2.shiziflag1 = 1 → CountsLostRows f1 f2 := by
  intro hclaim
  have hcounts := hclaim (leftBranch 80 0) (farView 1) (by decide) rfl
  exact not_independent leftBranch_accepted (by decide) rfl (hcounts.independent 6 (-1000))

end CrossGuard

/-! ## The far guard -/

section FarGuard

variable {f1 : Findline1} {f2 : Findline2} {r v : Int}

/-- A left turn at row `r` lies beyond a crossing: farther on the right edge moves
outwards. -/
def FarViewLeft (f1 : Findline1) (r : Int) : Prop :=
  r < 40 ∧ 100 < f1.rightline (r - 5) ∧ 10 < f1.rightline (r - 5) - f1.rightline r

/-- A right turn at row `r` lies beyond a crossing. -/
def FarViewRight (f1 : Findline1) (r : Int) : Prop :=
  r ≤ 40 ∧ f1.leftline (r - 5) < 60 ∧ 10 < f1.leftline r - f1.leftline (r - 5)

def NoLeftTurn (f2 : Findline2) : Prop := f2.leftturnflag = 0 ∧ f2.leftturnRow = 0

def NoRightTurn (f2 : Findline2) : Prop := f2.rightturnflag = 0 ∧ f2.rightturnRow = 0

/-- What `findline2` has cleared, on a frame without a confirmed crossing. -/
structure TurnsCleared (f2 : Findline2) : Prop where
  left : f2.leftturnflag = 0
  right : f2.rightturnflag = 0
  cross : f2.shiziflag1 = 0

/-- Whatever lies beyond, the far guard of the left branch only writes the variables
of a right turn. -/
theorem takeLeftCurve1_kept (v : Int) (f1 : Findline1) (r : Int) (hcross : f2.shiziflag1 = 0) :
    (takeLeftCurve1 v f1 r f2).val.leftturnflag = 1 ∧
      (takeLeftCurve1 v f1 r f2).val.leftturnRow = r := by
  simp only [takeLeftCurve1, val_bind, val_onlyIf, val_pure]
  constructor
  · split <;> simp [hcross]
  · split <;> simp [hcross]

theorem takeRightCurve1_kept (v : Int) (f1 : Findline1) (r : Int) (hcross : f2.shiziflag1 = 0) :
    (takeRightCurve1 v f1 r f2).val.rightturnflag = 1 ∧
      (takeRightCurve1 v f1 r f2).val.rightturnRow = r := by
  simp only [takeRightCurve1, val_bind, val_onlyIf, val_pure]
  constructor
  · split <;> simp [hcross]
  · split <;> simp [hcross]

/-- The far guard never takes effect: a turn accepted at a row that shows the view
past a crossing is kept. -/
theorem farGuard_withoutEffect (v : Int) (f1 : Findline1) (f2 : Findline2) (r : Int)
    (h : TurnsCleared f2) :
    (LeftTurnFound f1 f2 r → FarViewLeft f1 r → ¬ NoLeftTurn (findCurve1 v f1 f2).val ∧
      (findCurve1 v f1 f2).val.leftturnflag = 1 ∧ (findCurve1 v f1 f2).val.leftturnRow = r) ∧
    (RightTurnFound f1 f2 r → FarViewRight f1 r → ¬ NoRightTurn (findCurve1 v f1 f2).val ∧
      (findCurve1 v f1 f2).val.rightturnflag = 1 ∧ (findCurve1 v f1 f2).val.rightturnRow = r) := by
  constructor
  · intro hfound _
    have hkept := takeLeftCurve1_kept v f1 r h.cross
    rw [← hfound.result v] at hkept
    exact ⟨fun hno => absurd (hno.1.symm.trans hkept.1) (by decide), hkept⟩
  · intro hfound _
    have hkept := takeRightCurve1_kept v f1 r h.cross
    rw [← hfound.result v] at hkept
    exact ⟨fun hno => absurd (hno.1.symm.trans hkept.1) (by decide), hkept⟩

theorem farBranch_accepted : LeftTurnFound (leftBranch 35 30) (farView 0) 35 := by
  refine ⟨?_, rfl⟩
  decide +kernel

theorem farBranch_farView : FarViewLeft (leftBranch 35 30) 35 := by
  unfold FarViewLeft
  decide

/-- A left turn at row 35, with the right edge 20 columns farther out on row 30. -/
theorem farGuard_withoutEffect_farBranch :
    ¬ NoLeftTurn (findCurve1 0 (leftBranch 35 30) (farView 0)).val ∧
      (findCurve1 0 (leftBranch 35 30) (farView 0)).val.leftturnflag = 1 ∧
      (findCurve1 0 (leftBranch 35 30) (farView 0)).val.leftturnRow = 35 :=
  (farGuard_withoutEffect 0 (leftBranch 35 30) (farView 0) 35 ⟨rfl, rfl, rfl⟩).1
    farBranch_accepted farBranch_farView

theorem farBranch_not_vetoed : ¬ ∀ v f1 f2 r, 3 ≤ f2.toppoint → f2.toppoint ≤ 118 →
    TurnsCleared f2 → LeftTurnFound f1 f2 r → FarViewLeft f1 r →
      NoLeftTurn (findCurve1 v f1 f2).val := by
  intro hclaim
  have hno := hclaim 0 (leftBranch 35 30) (farView 0) 35 (by decide) (by decide) ⟨rfl, rfl, rfl⟩
    farBranch_accepted farBranch_farView
  have hkept := takeLeftCurve1_kept 0 (leftBranch 35 30) 35 (show (farView 0).shiziflag1 = 0 from rfl)
  rw [← farBranch_accepted.result 0] at hkept
  exact absurd (hno.1.symm.trans hkept.1) (by decide)

end FarGuard

end SmartCar
