import SmartCar.FindLines.Unchanged

/-!
# Left and right

The detectors of rings and deep turns and the judgements of corners are written
once for each side. Exchanging the sides of the edges and of the corners exchanges
the sides of what they find.
-/

namespace SmartCar

open Imperative Logged

/-! ## Exchanging the sides -/

def Findline1.mirror (f : Findline1) : Findline1 where
  midline := f.midline
  leftline := fun i => 159 - f.rightline i
  rightline := fun i => 159 - f.leftline i
  leftlineflag := f.rightlineflag
  rightlineflag := f.leftlineflag

/-- A corner that is not recorded has row and column 0. -/
def mirrorColumn (row column : Int) : Int := if row = 0 then column else 159 - column

def Findline2.mirror (f2 : Findline2) : Findline2 :=
  { f2 with
    leftturnflag := f2.rightturnflag
    rightturnflag := f2.leftturnflag
    leftturnRow := f2.rightturnRow
    rightturnRow := f2.leftturnRow
    leftguaiflag := f2.rightguaiflag
    rightguaiflag := f2.leftguaiflag
    leftguaiRow := f2.rightguaiRow
    rightguaiRow := f2.leftguaiRow
    leftguaiColumn := mirrorColumn f2.rightguaiRow f2.rightguaiColumn
    rightguaiColumn := mirrorColumn f2.leftguaiRow f2.leftguaiColumn }

/-- The same state with the sides of the edges, corners, turns and ring stages
exchanged. -/
def Lines.mirror (s : Lines) : Lines :=
  { s with
    f1 := s.f1.mirror, f2 := s.f2.mirror
    js1 := s.js2, js2 := s.js1, js5 := s.js6, js6 := s.js5 }

section Fields

variable (f1 : Findline1) (f2 : Findline2) (s : Lines) (i : Int)

@[simp] theorem mirror_leftline : f1.mirror.leftline i = 159 - f1.rightline i := rfl

@[simp] theorem mirror_rightline : f1.mirror.rightline i = 159 - f1.leftline i := rfl

@[simp] theorem mirror_leftlineflag : f1.mirror.leftlineflag i = f1.rightlineflag i := rfl

@[simp] theorem mirror_rightlineflag : f1.mirror.rightlineflag i = f1.leftlineflag i := rfl

@[simp] theorem mirror_leftguaiflag : f2.mirror.leftguaiflag = f2.rightguaiflag := rfl

@[simp] theorem mirror_rightguaiflag : f2.mirror.rightguaiflag = f2.leftguaiflag := rfl

@[simp] theorem mirror_leftguaiRow : f2.mirror.leftguaiRow = f2.rightguaiRow := rfl

@[simp] theorem mirror_rightguaiRow : f2.mirror.rightguaiRow = f2.leftguaiRow := rfl

@[simp] theorem mirror_toppoint : f2.mirror.toppoint = f2.toppoint := rfl

@[simp] theorem mirror_f1 : s.mirror.f1 = s.f1.mirror := rfl

@[simp] theorem mirror_f2 : s.mirror.f2 = s.f2.mirror := rfl

@[simp] theorem mirror_js1 : s.mirror.js1 = s.js2 := rfl

@[simp] theorem mirror_js2 : s.mirror.js2 = s.js1 := rfl

end Fields

/-! ## Detectors that treat both sides alike -/

section Alike

variable (f1 : Findline1) (f2 : Findline2)

theorem lostNear_mirror : (lostNear f1.mirror).val = (lostNear f1).val.swap := by
  refine foldDown_map (g := Prod.swap) (s := ((0 : Int), (0 : Int))) fun i flags => ?_
  simp

theorem confirmLost_congr {contradicts contradicts' : Int → Logged Access Bool} (toppoint flag : Int)
    (h : ∀ i, (contradicts i).val = (contradicts' i).val) :
    (confirmLost contradicts toppoint flag).val = (confirmLost contradicts' toppoint flag).val := by
  simp only [confirmLost, val_onlyIf]
  congr 1
  refine foldDown_map (g := id) fun i flag => ?_
  simp [h]

theorem findCurve3_mirror :
    (findCurve3 f1.mirror f2.mirror).val = (findCurve3 f1 f2).val.mirror := by
  have hleft : ∀ flag, (confirmLost (fun i => (f1.mirror.lflag i).eq 1 <||> (f1.mirror.rflag i).eq 0)
      f2.toppoint flag).val =
        (confirmLost (fun i => (f1.lflag i).eq 0 <||> (f1.rflag i).eq 1) f2.toppoint flag).val := by
    intro flag
    apply confirmLost_congr
    intro i
    simp [Bool.or_comm]
  have hright : ∀ flag, (confirmLost (fun i => (f1.mirror.lflag i).eq 0 <||> (f1.mirror.rflag i).eq 1)
      f2.toppoint flag).val =
        (confirmLost (fun i => (f1.lflag i).eq 1 <||> (f1.rflag i).eq 0) f2.toppoint flag).val := by
    intro flag
    apply confirmLost_congr
    intro i
    simp [Bool.or_comm]
  have htop : f2.mirror.toppoint = f2.toppoint := rfl
  have hturn : (f2.mirror.leftturnflag = 0 ∧ f2.mirror.rightturnflag = 0) ↔
      (f2.leftturnflag = 0 ∧ f2.rightturnflag = 0) := and_comm
  -- the two tests that withdraw a flag are each other's mirror image
  simp only [findCurve3, val_onlyIf, val_bind, lostNear_mirror, htop, hleft, hright, val_pure,
    Prod.fst_swap, Prod.snd_swap]
  generalize (confirmLost _ f2.toppoint (lostNear f1).val.1).val = flagL
  generalize (confirmLost _ f2.toppoint (lostNear f1).val.2).val = flagR
  by_cases h : f2.leftturnflag = 0 ∧ f2.rightturnflag = 0
  · rw [if_pos (hturn.mpr h), if_pos h]
    by_cases hL : flagL = 1 ∧ flagR = 0
    · rw [if_neg (by omega), if_pos (by omega), if_pos hL]
      rfl
    · rw [if_neg hL]
      by_cases hR : flagL = 0 ∧ flagR = 1
      · rw [if_pos (by omega), if_pos hR]
        rfl
      · rw [if_neg (by omega), if_neg (by omega), if_neg hR]
  · rw [if_neg (fun hm => h (hturn.mp hm)), if_neg h]

theorem huan1Stage_congr {flag flag' : Int → Logged Access Int} (toppoint : Int)
    (h : ∀ i, (flag i).val = (flag' i).val) :
    (huan1Stage flag toppoint).val = (huan1Stage flag' toppoint).val := by
  refine foldDown_map (g := id) (s := (1 : Int)) fun i js => ?_
  simp [h]

theorem findHuan1_mirror (s : Lines) : (findHuan1 s.mirror).val = (findHuan1 s).val.mirror := by
  have hleft : (huan1Stage s.f1.mirror.rflag s.f2.toppoint).val =
      (huan1Stage s.f1.lflag s.f2.toppoint).val := huan1Stage_congr _ fun _ => rfl
  have hright : (huan1Stage s.f1.mirror.lflag s.f2.toppoint).val =
      (huan1Stage s.f1.rflag s.f2.toppoint).val := huan1Stage_congr _ fun _ => rfl
  simp only [findHuan1, val_ite, val_bind, val_pure]
  simp only [mirror_f1, mirror_f2, mirror_leftguaiflag, mirror_rightguaiflag, mirror_toppoint,
    hleft, hright]
  by_cases h : s.f2.leftguaiflag = 1 ∧ s.f2.rightguaiflag = 0
  · rw [if_neg (by omega), if_pos (by omega), if_pos h]
    rfl
  · rw [if_neg h]
    by_cases h' : s.f2.leftguaiflag = 0 ∧ s.f2.rightguaiflag = 1
    · rw [if_pos (by omega), if_pos h']
      rfl
    · rw [if_neg (by omega), if_neg (by omega), if_neg h']

/-- The translation of the locals of `find_huan2`. -/
def Huan2.mirror (c : Huan2) : Huan2 := ⟨c.cout, c.js2, c.js1⟩

theorem huan2Step_mirror (i : Int) (c : Huan2) :
    (huan2Step f1.mirror i c.mirror).val = mapStep Huan2.mirror (huan2Step f1 i c).val := by
  have hleft : (leftHuan2At f1.mirror i).val = (rightHuan2At f1 i).val := by
    simp [leftHuan2At, rightHuan2At]
  have hright : (rightHuan2At f1.mirror i).val = (leftHuan2At f1 i).val := by
    simp [leftHuan2At, rightHuan2At]
  simp only [huan2Step, val_ite, val_bind, val_pure]
  simp only [Huan2.mirror, hleft, hright]
  by_cases h : c.js1 = 1 ∧ c.js2 = 0
  · rw [if_neg (by omega), if_pos (by omega), if_pos h]
    split
    next => split <;> rfl
    next => split <;> rfl
  · rw [if_neg h]
    by_cases h' : c.js2 = 1 ∧ c.js1 = 0
    · rw [if_pos (by omega), if_pos h']
      split
      next => split <;> rfl
      next => split <;> rfl
    · rw [if_neg (by omega), if_neg (by omega), if_neg h']
      rfl

theorem findHuan2_mirror (s : Lines) : (findHuan2 s.mirror).val = (findHuan2 s).val.mirror := by
  have hloop : (forDown 95 s.f2.toppoint (Huan2.mirror ⟨0, s.js1, s.js2⟩)
      (huan2Step s.f1.mirror)).val =
        (forDown 95 s.f2.toppoint ⟨0, s.js1, s.js2⟩ (huan2Step s.f1)).val.mirror :=
    forDown_map (g := Huan2.mirror) (huan2Step_mirror s.f1)
  simp only [findHuan2, val_bind, val_pure, mirror_f1, mirror_f2, mirror_js1, mirror_js2,
    mirror_toppoint]
  change ({ s.mirror with js1 := _, js2 := _ } : Lines) = _
  rw [show (⟨0, s.js2, s.js1⟩ : Huan2) = Huan2.mirror ⟨0, s.js1, s.js2⟩ from rfl, hloop]
  rfl

theorem rightRowLoseJudge_mirror (toppoint row : Int) :
    (rightRowLoseJudge f1.mirror toppoint row).val = (leftRowLoseJudge f1 toppoint row).val :=
  congrArg Option.isNone (scanDown_congr fun _ _ _ => rfl)

theorem leftRowLoseJudge_mirror (toppoint row : Int) :
    (leftRowLoseJudge f1.mirror toppoint row).val = (rightRowLoseJudge f1 toppoint row).val :=
  congrArg Option.isNone (scanDown_congr fun _ _ _ => rfl)

theorem bothFoundAround_mirror (row : Int) :
    (bothFoundAround f1.mirror row).val = (bothFoundAround f1 row).val :=
  congrArg Option.isNone (scanDown_congr fun i _ _ => by simp [Bool.or_comm])

end Alike

/-! ## The judgements -/

section Judgements

variable {f1 : Findline1} {f2 : Findline2}

/-- The corners that are flagged are recorded at a column of a found edge. -/
structure CornersInside (f2 : Findline2) : Prop where
  left : f2.leftguaiflag = 1 →
    f2.leftguaiRow ≠ 0 ∧ 25 ≤ f2.leftguaiColumn ∧ f2.leftguaiColumn ≤ 134
  right : f2.rightguaiflag = 1 →
    f2.rightguaiRow ≠ 0 ∧ 25 ≤ f2.rightguaiColumn ∧ f2.rightguaiColumn ≤ 134

/-- `shizi_judge` drops the left corner. -/
def dropsLeft (f1 : Findline1) (f2 : Findline2) : Prop := f2.leftguaiflag = 1 ∧
  (f2.leftguaiColumn > 140 ∨ (rightRowLoseJudge f1 f2.toppoint f2.leftguaiRow).val = true)

def dropsRight (f1 : Findline1) (f2 : Findline2) : Prop := f2.rightguaiflag = 1 ∧
  (f2.rightguaiColumn < 20 ∨ (leftRowLoseJudge f1 f2.toppoint f2.rightguaiRow).val = true)

instance : Decidable (dropsLeft f1 f2) := inferInstanceAs (Decidable (_ ∧ (_ ∨ _)))

instance : Decidable (dropsRight f1 f2) := inferInstanceAs (Decidable (_ ∧ (_ ∨ _)))

/-- A judgement that is made under one condition and drops a corner under another. -/
theorem onlyIf_drops {α : Type} {c d : Prop} [Decidable c] [Decidable d]
    {judge : α → Logged Access α} {a b : α} (hjudge : (judge a).val = if d then b else a) :
    (onlyIf c judge a).val = if c ∧ d then b else a := by
  rw [val_onlyIf, hjudge]
  by_cases hc : c
  · simp only [hc, if_true, true_and]
  · simp only [hc, if_false, false_and]

theorem judgeLeftguai_val (f2 : Findline2) :
    (onlyIf (f2.leftguaiflag = 1) (judgeLeftguai f1) f2).val =
      if dropsLeft f1 f2 then f2.clearLeftguai else f2 := by
  apply onlyIf_drops
  simp only [judgeLeftguai, val_ite, val_bind, val_pure, ite_or]

theorem judgeRightguai_val (f2 : Findline2) :
    (onlyIf (f2.rightguaiflag = 1) (judgeRightguai f1) f2).val =
      if dropsRight f1 f2 then f2.clearRightguai else f2 := by
  apply onlyIf_drops
  simp only [judgeRightguai, val_ite, val_bind, val_pure, ite_or]

/-- Neither judgement sees what the other one does. -/
theorem shiziJudge_val : (shiziJudge f1 f2).val =
    if dropsRight f1 f2 then
      (if dropsLeft f1 f2 then f2.clearLeftguai else f2).clearRightguai
    else if dropsLeft f1 f2 then f2.clearLeftguai else f2 := by
  simp only [shiziJudge, val_bind, judgeLeftguai_val, judgeRightguai_val]
  split
  next => rfl
  next => rfl

theorem shiziJudge_mirror (h : CornersInside f2) :
    (shiziJudge f1.mirror f2.mirror).val = (shiziJudge f1 f2).val.mirror := by
  have hleft : dropsLeft f1.mirror f2.mirror ↔ dropsRight f1 f2 := by
    refine and_congr_right fun hflag => ?_
    have hinside := h.right hflag
    have hcolumn : f2.mirror.leftguaiColumn = 159 - f2.rightguaiColumn := if_neg hinside.1
    rw [hcolumn, rightRowLoseJudge_mirror]
    refine or_congr ?_ Iff.rfl
    omega
  have hright : dropsRight f1.mirror f2.mirror ↔ dropsLeft f1 f2 := by
    refine and_congr_right fun hflag => ?_
    have hinside := h.left hflag
    have hcolumn : f2.mirror.rightguaiColumn = 159 - f2.leftguaiColumn := if_neg hinside.1
    rw [hcolumn, leftRowLoseJudge_mirror]
    refine or_congr ?_ Iff.rfl
    omega
  simp only [shiziJudge_val, hleft, hright]
  by_cases hl : dropsLeft f1 f2
  · by_cases hr : dropsRight f1 f2
    · simp only [hl, hr, if_true]
      rfl
    · simp only [hl, hr, if_true, if_false]
      rfl
  · by_cases hr : dropsRight f1 f2
    · simp only [hl, hr, if_true, if_false]
      rfl
    · simp only [hl, hr, if_false]

/-- `both_row_lose_judge` drops the flag of the left corner. -/
def unflagsLeft (f1 : Findline1) (f2 : Findline2) : Prop :=
  f2.leftguaiflag = 1 ∧ (bothFoundAround f1 f2.leftguaiRow).val = true

def unflagsRight (f1 : Findline1) (f2 : Findline2) : Prop :=
  f2.rightguaiflag = 1 ∧ (bothFoundAround f1 f2.rightguaiRow).val = true

instance : Decidable (unflagsLeft f1 f2) := inferInstanceAs (Decidable (_ ∧ _))

instance : Decidable (unflagsRight f1 f2) := inferInstanceAs (Decidable (_ ∧ _))

theorem bothRowLoseJudge_val : (bothRowLoseJudge f1 f2).val =
    if unflagsRight f1 f2 then
      { (if unflagsLeft f1 f2 then { f2 with leftguaiflag := 0 } else f2) with rightguaiflag := 0 }
    else if unflagsLeft f1 f2 then { f2 with leftguaiflag := 0 } else f2 := by
  have hleft : ∀ f2 : Findline2, (onlyIf (f2.leftguaiflag = 1) (fun f2 => do
      return if ← bothFoundAround f1 f2.leftguaiRow then { f2 with leftguaiflag := 0 } else f2)
      f2).val = if unflagsLeft f1 f2 then { f2 with leftguaiflag := 0 } else f2 :=
    fun f2 => onlyIf_drops rfl
  have hright : ∀ f2 : Findline2, (onlyIf (f2.rightguaiflag = 1) (fun f2 => do
      return if ← bothFoundAround f1 f2.rightguaiRow then { f2 with rightguaiflag := 0 } else f2)
      f2).val = if unflagsRight f1 f2 then { f2 with rightguaiflag := 0 } else f2 :=
    fun f2 => onlyIf_drops rfl
  simp only [bothRowLoseJudge, val_bind, hleft, hright]
  by_cases hl : unflagsLeft f1 f2
  · simp only [hl, if_true]
    rfl
  · simp only [hl, if_false]

theorem bothRowLoseJudge_mirror (f1 : Findline1) (f2 : Findline2) :
    (bothRowLoseJudge f1.mirror f2.mirror).val = (bothRowLoseJudge f1 f2).val.mirror := by
  have hleft : unflagsLeft f1.mirror f2.mirror ↔ unflagsRight f1 f2 := by
    simp only [unflagsLeft, unflagsRight, mirror_leftguaiflag, mirror_leftguaiRow,
      bothFoundAround_mirror]
  have hright : unflagsRight f1.mirror f2.mirror ↔ unflagsLeft f1 f2 := by
    simp only [unflagsLeft, unflagsRight, mirror_rightguaiflag, mirror_rightguaiRow,
      bothFoundAround_mirror]
  simp only [bothRowLoseJudge_val, hleft, hright]
  by_cases hl : unflagsLeft f1 f2
  · by_cases hr : unflagsRight f1 f2
    · simp only [hl, hr, if_true]
      rfl
    · simp only [hl, hr, if_true, if_false]
      rfl
  · by_cases hr : unflagsRight f1 f2
    · simp only [hl, hr, if_true, if_false]
      rfl
    · simp only [hl, hr, if_false]

end Judgements

/-! ## The elements of a frame -/

/-- What is recognised on one side. -/
@[ext]
structure SideElements where
  guaiflag : Int
  guaiRow : Int
  guaiColumn : Int
  turnflag : Int
  js : Int
deriving DecidableEq

@[ext]
structure Elements where
  left : SideElements
  right : SideElements
deriving DecidableEq

def Lines.elements (s : Lines) : Elements where
  left := ⟨s.f2.leftguaiflag, s.f2.leftguaiRow, s.f2.leftguaiColumn, s.f2.leftturnflag, s.js1⟩
  right :=
    ⟨s.f2.rightguaiflag, s.f2.rightguaiRow, s.f2.rightguaiColumn, s.f2.rightturnflag, s.js2⟩

def SideElements.mirror (e : SideElements) : SideElements :=
  { e with guaiColumn := mirrorColumn e.guaiRow e.guaiColumn }

def Elements.mirror (e : Elements) : Elements := ⟨e.right.mirror, e.left.mirror⟩

theorem elements_mirror (s : Lines) : s.mirror.elements = s.elements.mirror := rfl

theorem SideElements.mirror_mirror (e : SideElements) : e.mirror.mirror = e := by
  have hcolumn : mirrorColumn e.guaiRow (mirrorColumn e.guaiRow e.guaiColumn) = e.guaiColumn := by
    unfold mirrorColumn
    split
    next => rfl
    next => omega
  cases e
  simpa [SideElements.mirror] using hcolumn

theorem Elements.mirror_injective : Function.Injective Elements.mirror :=
  Function.LeftInverse.injective (g := Elements.mirror) fun e => by
    simp [Elements.mirror, SideElements.mirror_mirror]

/-- The deep turn, where `findline2` asks for it. -/
def deepTurnOf (s : Lines) : Logged Access Lines := do
  let f2 ← onlyIf
    (s.f2.toppoint ≠ 0 ∧ s.f2.toppoint < 95 ∧ s.f2.leftturnflag = 0 ∧ s.f2.rightturnflag = 0)
    (findCurve3 s.f1) s.f2
  return { s with f2 }

def judgeElements (s : Lines) : Logged Access Lines := do
  let s ← findHuan1 s
  let f2 ← shiziJudge s.f1 s.f2
  let f2 ← bothRowLoseJudge s.f1 f2
  return { s with f2 }

/-- The judgements, where a corner is seen. -/
def judgedOf (s : Lines) : Logged Access Lines :=
  onlyIf (s.f2.leftguaiflag = 1 ∨ s.f2.rightguaiflag = 1) judgeElements s

/-- The second stage of a ring detection, behind a first one. -/
def secondStageOf (s : Lines) : Logged Access Lines :=
  onlyIf (s.js1 = 1 ∨ s.js2 = 1) findHuan2 s

/-- The detectors that follow `find_guai`, in the order and under the conditions of
`findline2`. -/
def elementsOf (s : Lines) : Logged Access Lines := do
  let s ← judgedOf (← deepTurnOf s)
  secondStageOf s

/-- `find_guai` and the detectors that follow it. -/
def detectElements (s : Lines) : Logged Access Lines := do
  let f2 ← onlyIf (s.f2.leftguaiflag = 0 ∧ s.f2.rightguaiflag = 0) (findGuai s.f1) s.f2
  elementsOf { s with f2 }

section Detectors

variable {s : Lines}

theorem onlyIf_mirror {α : Type} (mirror : α → α) {c d : Prop} [Decidable c] [Decidable d]
    {f g : α → Logged Access α} {a : α} (hc : d ↔ c)
    (h : (f (mirror a)).val = mirror (g a).val) :
    (onlyIf d f (mirror a)).val = mirror (onlyIf c g a).val := by
  simp only [val_onlyIf, hc]
  split
  next => exact h
  next => rfl

theorem deepTurnOf_mirror (s : Lines) : (deepTurnOf s.mirror).val = (deepTurnOf s).val.mirror := by
  have hcurve := onlyIf_mirror Findline2.mirror (d := s.mirror.f2.toppoint ≠ 0 ∧
    s.mirror.f2.toppoint < 95 ∧ s.mirror.f2.leftturnflag = 0 ∧ s.mirror.f2.rightturnflag = 0)
    (and_congr_right' (and_congr_right' and_comm)) (findCurve3_mirror s.f1 s.f2)
  simp only [deepTurnOf, val_bind, val_pure, mirror_f1]
  rw [mirror_f2] at hcurve ⊢
  rw [hcurve]
  rfl

theorem deepTurnOf_inside (h : CornersInside s.f2) : CornersInside (deepTurnOf s).val.f2 :=
  Returns.onlyIf h fun _ => findCurve3_keeps s.f1 (fun _ _ _ _ _ h => ⟨h.left, h.right⟩) h

theorem judgedOf_mirror (h : CornersInside s.f2) :
    (judgedOf s.mirror).val = (judgedOf s).val.mirror := by
  have hinside : CornersInside (findHuan1 s).val.f2 := by
    rw [(findHuan1_rest s).2]
    exact h
  apply onlyIf_mirror Lines.mirror or_comm
  simp only [judgeElements, val_bind, val_pure, findHuan1_mirror, mirror_f1, mirror_f2]
  rw [shiziJudge_mirror hinside, bothRowLoseJudge_mirror]
  rfl

theorem secondStageOf_mirror (s : Lines) :
    (secondStageOf s.mirror).val = (secondStageOf s).val.mirror :=
  onlyIf_mirror Lines.mirror or_comm (findHuan2_mirror s)

/-- Only `find_guai` can tell the sides apart. -/
theorem elementsOf_mirror (h : CornersInside s.f2) :
    (elementsOf s.mirror).val = (elementsOf s).val.mirror := by
  simp only [elementsOf, val_bind, deepTurnOf_mirror]
  rw [judgedOf_mirror (deepTurnOf_inside h), secondStageOf_mirror]

end Detectors

end SmartCar
