import SmartCar.FindLines.RingStages
import SmartCar.FindLines.Unchanged

/-!
# The ring state machine

The nine variables that carry a ring and a crossing from frame to frame, with
the steps a frame makes on them as functions of a few signs read off the image.
Each block of `findline2` is shown to make its step; the blocks in between
leave these variables alone.
-/

namespace SmartCar

open Imperative Logged

/-! ## States and steps -/

/-- The part of `f2` that outlives a frame. -/
structure RingMarks where
  huanleftflag : Int
  huanrightflag : Int
  huan : Int
  shiziflag0 : Int
  shiziflag1 : Int

/-- The variables of the ring and crossing machines. -/
structure RingState extends RingMarks where
  js3 : Int
  js4 : Int
  js7 : Int
  js8 : Int

/-- What a frame shows: a corner that survives the judgement, a left or right
ring, the far corner of the ring being driven, its exit, and a straight road
behind the exit. -/
structure RingSigns where
  corner : Bool
  leftFound : Bool
  rightFound : Bool
  leftCorner : Bool
  rightCorner : Bool
  leftExit : Bool
  rightExit : Bool
  straight : Bool

namespace RingState

variable (g : RingSigns) (r : RingState)

def clearShizi : RingState := { r with shiziflag0 := 0, shiziflag1 := 0 }

/-- The crossing counter: four corners without a reset confirm a crossing. -/
def count : RingState :=
  if g.corner then
    let r := if r.shiziflag1 = 0 then { r with shiziflag0 := r.shiziflag0 + 1 } else r
    if r.shiziflag0 = 4 then { r with shiziflag1 := 1, shiziflag0 := 0 } else r
  else r

/-- A completed detection sets the flag of its side. -/
def detect : RingState :=
  if g.leftFound ∨ g.rightFound then
    { r.clearShizi with
      huanrightflag := if g.rightFound then 1 else r.huanrightflag
      huanleftflag := if g.leftFound then 1 else r.huanleftflag }
  else r

/-- Inside a left ring: the far corner ends the driving phase. -/
def driveLeft : RingState :=
  if r.huanleftflag ≠ 0 ∧ g.leftCorner then { r with huanleftflag := 0, huan := 1, js3 := 1 }
  else r

def driveRight : RingState :=
  if r.huanrightflag ≠ 0 ∧ g.rightCorner then { r with huanrightflag := 0, huan := 1, js4 := 1 }
  else r

def awaitLeft : RingState :=
  if r.js3 = 1 ∧ g.leftExit then { r with js7 := 1, js3 := 0, huanleftflag := 0 } else r

def awaitRight : RingState :=
  if r.js4 = 1 ∧ g.rightExit then { r with js8 := 1, js4 := 0, huanrightflag := 0 } else r

/-- Waiting for the exit. -/
def await : RingState :=
  if r.huan = 1 then awaitRight g (awaitLeft g r.clearShizi) else r

/-- Driving out of the ring, until the road is straight again. -/
def leave : RingState :=
  if r.js7 ≠ 0 ∨ r.js8 ≠ 0 then
    if g.straight then { r.clearShizi with huan := 0, js7 := 0, js8 := 0 } else r.clearShizi
  else r

/-- The steps of one frame, in source order. -/
def step : RingState := leave g (await g (driveRight g (driveLeft g (detect g (count g r)))))

end RingState

def Findline2.marks (f2 : Findline2) : RingMarks :=
  ⟨f2.huanleftflag, f2.huanrightflag, f2.huan, f2.shiziflag0, f2.shiziflag1⟩

def Lines.ring (s : Lines) : RingState := ⟨s.f2.marks, s.js3, s.js4, s.js7, s.js8⟩

theorem Redrawn.ring {s t : Lines} (h : Redrawn s t) : t.ring = s.ring := by
  rw [h.rest]
  rfl

/-! ## The signs of a frame -/

/-- A corner flag is up. -/
def Findline2.cornerSeen (f2 : Findline2) : Bool := f2.leftguaiflag = 1 || f2.rightguaiflag = 1

/-- The right corner at which a left ring is left. -/
def leftCornerSeen (s : Lines) : Bool :=
  let f2 := (findHuanguai s.f1 s.f2).val
  f2.righthuanguaiflag = 1 && f2.righthuanguaiColumn ≥ 125

/-- The left corner at which a right ring is left. -/
def rightCornerSeen (s : Lines) : Bool :=
  let f2 := (findHuanguai s.f1 s.f2).val
  f2.lefthuanguaiflag = 1 && f2.lefthuanguaiColumn ≤ 35

def leftExitSeen (s : Lines) : Bool := (scanDown 95 s.f2.toppoint (leftExitAt s)).val.isSome

def rightExitSeen (s : Lines) : Bool := (scanDown 95 s.f2.toppoint (rightExitAt s)).val.isSome

/-- Both edges are found on more than 40 rows, and the road was last judged
straight. -/
def straightSeen (shortstraightFlag : Int) (s : Lines) : Bool :=
  (countBothFound s.f1).val > 40 && shortstraightFlag ≠ 0

/-- The signs that `findline2` reads in the state `s` that `findline1` left. -/
def frameSigns (fr : Frame) (s : Lines) : RingSigns :=
  let judged := (cornerBlock (cornersOf fr s).val).val
  let stages := (stagesOf fr s).val
  let left := (leftRing (ringFlags stages)).val
  let waiting := (ringsOf fr s).val.clearShizi
  let exit := (huanBlock (ringsOf fr s).val).val.clearTurns
  { corner := judged.f2.cornerSeen
    leftFound := stages.js1 = 3
    rightFound := stages.js2 = 3
    leftCorner := leftCornerSeen (leftRingRedraw (ringFlags stages)).val
    rightCorner := rightCornerSeen (rightRingRedraw left).val
    leftExit := leftExitSeen waiting
    rightExit := rightExitSeen (onlyIf (waiting.js3 = 1) leftHuanExit waiting).val
    straight := straightSeen fr.shortstraightFlag (exitRedraw exit).val }

/-! ## Each block makes its step -/

/-- `f2` has the marks `m` and its far end on row `top`. -/
def HasMarks (m : RingMarks) (top : Int) (f2 : Findline2) : Prop :=
  f2.marks = m ∧ f2.toppoint = top

theorem hasMarks_guaiFree (m : RingMarks) (top : Int) : GuaiFree (HasMarks m top) :=
  fun _ _ _ _ _ _ _ h => h

theorem hasMarks_turnFree (m : RingMarks) (top : Int) : TurnFree (HasMarks m top) :=
  fun _ _ _ _ _ h => h

theorem hasMarks_huanguaiFree (m : RingMarks) (top : Int) : HuanguaiFree (HasMarks m top) :=
  fun _ _ _ _ _ _ _ h => h

theorem findToppoint_marks (img : Image) (f1 : Findline1) (f2 : Findline2) :
    (findToppoint img f1 f2).val.marks = f2.marks := by
  obtain ⟨found, hval, -⟩ := findToppoint_val img f1 f2
  rw [hval]
  cases found <;> rfl

section Blocks

variable (img : Image) (fr : Frame) {s : Lines}

/-- `find_guai` and the turn searches neither touch the ring variables nor the
stages. -/
theorem cornersOf_spec : ∃ f2, (cornersOf fr s).val = { clearFrame s with f2 } ∧
    HasMarks s.f2.marks s.f2.toppoint f2 := by
  have hclear : HasMarks s.f2.marks s.f2.toppoint (clearFrame s).f2 := ⟨rfl, rfl⟩
  refine Returns.bind (Q := HasMarks s.f2.marks s.f2.toppoint) (S := fun t => ∃ f2,
    t = { clearFrame s with f2 } ∧ HasMarks s.f2.marks s.f2.toppoint f2) ?_ fun f2 h =>
    Returns.bind (Q := HasMarks s.f2.marks s.f2.toppoint) ?_ fun f2 h =>
      Returns.bind (Q := HasMarks s.f2.marks s.f2.toppoint) ?_ fun f2 h => ?_
  · exact Returns.onlyIf hclear fun _ => findGuai_keeps _ (hasMarks_guaiFree _ _) hclear
  · exact Returns.onlyIf h fun _ => findCurve1_keeps _ (hasMarks_turnFree _ _) _ h
  · exact Returns.onlyIf h fun _ => findCurve3_keeps _ (hasMarks_turnFree _ _) h
  · exact ⟨f2, rfl, h⟩

theorem advanceShizi_ring (f2 : Findline2) (g : RingSigns) (hg : g.corner = true)
    (js3 js4 js7 js8 : Int) : (⟨(advanceShizi f2).marks, js3, js4, js7, js8⟩ : RingState) =
      RingState.count g ⟨f2.marks, js3, js4, js7, js8⟩ := by
  unfold advanceShizi RingState.count Findline2.marks
  simp only [hg, if_true]
  split <;> split <;> rfl

theorem dropGuai_cornerSeen (f2 : Findline2) : (dropGuai f2).cornerSeen = f2.cornerSeen := by
  unfold dropGuai Findline2.cornerSeen Findline2.clearLeftguai Findline2.clearRightguai
  grind

theorem countShizi_cornerSeen (f2 : Findline2) : (countShizi f2).cornerSeen = f2.cornerSeen :=
  countShizi_keeps (I := fun t => t.cornerSeen = f2.cornerSeen) (fun _ _ _ _ _ h => h)
    (fun _ _ _ h => h) rfl

theorem countShizi_toppoint (f2 : Findline2) : (countShizi f2).toppoint = f2.toppoint :=
  countShizi_keeps (I := fun t => t.toppoint = f2.toppoint) (fun _ _ _ _ _ h => h)
    (fun _ _ _ h => h) rfl

theorem countShizi_ring (f2 : Findline2) (g : RingSigns) (hg : g.corner = f2.cornerSeen)
    (js3 js4 js7 js8 : Int) : (⟨(countShizi f2).marks, js3, js4, js7, js8⟩ : RingState) =
      RingState.count g ⟨f2.marks, js3, js4, js7, js8⟩ := by
  have hdrop : (dropTurns (advanceShizi f2)).marks = (advanceShizi f2).marks :=
    dropTurns_keeps (I := fun t => t.marks = (advanceShizi f2).marks) (fun _ _ _ _ _ h => h) rfl
  unfold countShizi
  split
  next hcorner =>
    rw [hdrop]
    exact advanceShizi_ring f2 g (by simpa [hg, Findline2.cornerSeen] using hcorner) _ _ _ _
  next hcorner =>
    have hoff : g.corner = false := by simpa [hg, Findline2.cornerSeen] using hcorner
    simp [RingState.count, hoff]

/-- The corner block from a frame without a stage: the crossing counter makes
its step, and one side may reach stage 1. -/
structure CornerSpec (s t : Lines) : Prop where
  stage : OneSide 1 t.js1 t.js2
  f1 : t.f1 = s.f1
  toppoint : t.f2.toppoint = s.f2.toppoint
  ring : ∀ g : RingSigns, g.corner = t.f2.cornerSeen → t.ring = s.ring.count g
  left : t.js1 = 1 →
    Stage1 s.f2.leftguaiflag s.f2.rightguaiflag s.f1.rightlineflag s.f2.toppoint
  right : t.js2 = 1 →
    Stage1 s.f2.rightguaiflag s.f2.leftguaiflag s.f1.leftlineflag s.f2.toppoint

theorem cornerBlock_spec (hjs1 : s.js1 = 0) (hjs2 : s.js2 = 0) :
    CornerSpec s (cornerBlock s).val := by
  by_cases hcorner : s.f2.leftguaiflag = 1 ∨ s.f2.rightguaiflag = 1
  · have hval : (cornerBlock s).val = { (findHuan1 s).val with
        f2 := dropGuai (countShizi (judgeGuai (findHuan1 s).val.f1 (findHuan1 s).val.f2).val) } := by
      simp [cornerBlock, hcorner]
    -- `find_huan1` writes stages and the judgement corners, so the counter finds the old marks
    obtain ⟨hstage, hrest, hleft, hright⟩ := findHuan1_spec hjs1 hjs2
    generalize (findHuan1 s).val = t at hval hstage hrest hleft hright
    have hf1 : t.f1 = s.f1 := by rw [hrest]
    have hf2 : t.f2 = s.f2 := by rw [hrest]
    obtain ⟨hmarks, htop⟩ : HasMarks s.f2.marks s.f2.toppoint (judgeGuai t.f1 t.f2).val :=
      judgeGuai_keeps t.f1 (hasMarks_guaiFree _ _) ⟨by rw [hf2], by rw [hf2]⟩
    generalize (judgeGuai t.f1 t.f2).val = f2 at hval hmarks htop
    rw [hval]
    refine ⟨hstage, hf1, ?_, fun g hg => ?_, hleft, hright⟩
    · rw [(dropGuai_keeps (hasMarks_guaiFree (countShizi f2).marks _) ⟨rfl, rfl⟩).2,
        countShizi_toppoint, htop]
    · have hring := countShizi_ring f2 g (by rw [hg, dropGuai_cornerSeen, countShizi_cornerSeen])
        s.js3 s.js4 s.js7 s.js8
      have hdrop : (dropGuai (countShizi f2)).marks = (countShizi f2).marks :=
        (dropGuai_keeps (hasMarks_guaiFree _ (countShizi f2).toppoint) ⟨rfl, rfl⟩).1
      rw [hmarks] at hring
      simp only [Lines.ring, hdrop]
      rw [hrest]
      exact hring
  · have hval : (cornerBlock s).val = s := by simp [cornerBlock, hcorner]
    rw [hval]
    refine ⟨⟨Or.inl hjs1, Or.inl hjs2, Or.inl hjs1⟩, rfl, rfl, fun g hg => ?_, ?_, ?_⟩
    · have hoff : g.corner = false := by simpa [hg, Findline2.cornerSeen] using hcorner
      simp [RingState.count, hoff]
    · omega
    · omega

/-- A completed detection sets its flag, drops the stage and restarts the
crossing counter. -/
theorem ringFlags_spec {t : Lines} (hstages : RingStagesSpec img s t) (g : RingSigns)
    (hleft : g.leftFound = decide (t.js1 = 3)) (hright : g.rightFound = decide (t.js2 = 3)) :
    (ringFlags t).ring = s.ring.detect g ∧ (ringFlags t).js1 = 0 ∧ (ringFlags t).js2 = 0 ∧
      (ringFlags t).f1 = s.f1 := by
  obtain ⟨hstage, hrest, hf2, -, -⟩ := hstages
  have hring : ∀ m, (⟨m, t.js3, t.js4, t.js7, t.js8⟩ : RingState) =
      ⟨m, s.js3, s.js4, s.js7, s.js8⟩ := by
    rw [hrest]
    intro m
    rfl
  have hf1 : t.f1 = s.f1 := by rw [hrest]
  rcases hstage.left with h₁ | h₁
  · rcases hstage.right with h₂ | h₂
    · have hval : ringFlags t = t := by simp [ringFlags, h₁, h₂]
      rw [hval]
      refine ⟨?_, h₁, h₂, hf1⟩
      simp only [h₁, h₂] at hf2 hleft hright
      simp [RingState.detect, hleft, hright, Lines.ring, hring, hf2]
    · have hval : ringFlags t = { t with js2 := 0, f2 := { t.f2 with huanrightflag := 1 } } := by
        simp [ringFlags, rightRingFlag, leftRingFlag, h₁, h₂]
      rw [hval]
      refine ⟨?_, h₁, rfl, hf1⟩
      simp only [h₁, h₂] at hf2 hleft hright
      simp [RingState.detect, hleft, hright, Lines.ring, hring, hf2, Findline2.marks,
        Lines.clearShizi, RingState.clearShizi]
  · have h₂ : t.js2 = 0 := by have := hstage.one; omega
    have hval : ringFlags t = { t with js1 := 0, f2 := { t.f2 with huanleftflag := 1 } } := by
      simp [ringFlags, rightRingFlag, leftRingFlag, h₁, h₂]
    rw [hval]
    refine ⟨?_, rfl, h₂, hf1⟩
    simp only [h₁, h₂] at hf2 hleft hright
    simp [RingState.detect, hleft, hright, Lines.ring, hring, hf2, Findline2.marks,
      Lines.clearShizi, RingState.clearShizi]

theorem leftRingLeave_ring (g : RingSigns) (hg : g.leftCorner = leftCornerSeen s)
    (hflag : s.f2.huanleftflag ≠ 0) :
    (leftRingLeave s).val.ring = s.ring.driveLeft g := by
  obtain ⟨hmarks, -⟩ : HasMarks s.f2.marks s.f2.toppoint (findHuanguai s.f1 s.f2).val :=
    findHuanguai_keeps s.f1 (hasMarks_huanguaiFree _ _) ⟨rfl, rfl⟩
  simp only [leftRingLeave, val_bind, val_pure]
  unfold leftCornerSeen at hg
  generalize (findHuanguai s.f1 s.f2).val = f2 at hmarks hg ⊢
  simp only [Findline2.marks, RingMarks.mk.injEq] at hmarks
  by_cases hcorner : f2.righthuanguaiflag = 1 ∧ f2.righthuanguaiColumn ≥ 125
  · simp [RingState.driveLeft, Lines.ring, Findline2.marks, hg, hcorner, hflag, hmarks]
  · simp [RingState.driveLeft, Lines.ring, Findline2.marks, hg, hcorner, hmarks]

theorem rightRingLeave_ring (g : RingSigns) (hg : g.rightCorner = rightCornerSeen s)
    (hflag : s.f2.huanrightflag ≠ 0) :
    (rightRingLeave s).val.ring = s.ring.driveRight g := by
  obtain ⟨hmarks, -⟩ : HasMarks s.f2.marks s.f2.toppoint (findHuanguai s.f1 s.f2).val :=
    findHuanguai_keeps s.f1 (hasMarks_huanguaiFree _ _) ⟨rfl, rfl⟩
  simp only [rightRingLeave, val_bind, val_pure]
  unfold rightCornerSeen at hg
  generalize (findHuanguai s.f1 s.f2).val = f2 at hmarks hg ⊢
  simp only [Findline2.marks, RingMarks.mk.injEq] at hmarks
  by_cases hcorner : f2.lefthuanguaiflag = 1 ∧ f2.lefthuanguaiColumn ≤ 35
  · simp [RingState.driveRight, Lines.ring, Findline2.marks, hg, hcorner, hflag, hmarks]
  · simp [RingState.driveRight, Lines.ring, Findline2.marks, hg, hcorner, hmarks]

/-- The stages at rest and the edge flags as they were. -/
structure StageKept (s t : Lines) : Prop where
  js1 : t.js1 = s.js1
  js2 : t.js2 = s.js2
  flags : SameFlags s.f1 t.f1

theorem StageKept.refl (s : Lines) : StageKept s s := ⟨rfl, rfl, SameFlags.refl s.f1⟩

theorem StageKept.trans {t u : Lines} (h : StageKept s t) (h' : StageKept t u) : StageKept s u :=
  ⟨h'.js1.trans h.js1, h'.js2.trans h.js2, h.flags.trans h'.flags⟩

theorem Redrawn.stageKept {t : Lines} (h : Redrawn s t) : StageKept s t :=
  ⟨by rw [h.rest], by rw [h.rest], h.flags⟩

theorem leftRing_spec (g : RingSigns)
    (hg : g.leftCorner = leftCornerSeen (leftRingRedraw s).val) :
    (leftRing s).val.ring = s.ring.driveLeft g ∧ StageKept s (leftRing s).val := by
  by_cases hflag : s.f2.huanleftflag ≠ 0
  · have hredraw : Redrawn s (leftRingRedraw s).val := leftRingRedraw_redrawn
    have hleave := leftRingLeave_ring g hg (by rw [hredraw.f2]; exact hflag)
    simp only [leftRing, val_onlyIf, if_pos hflag, val_bind]
    refine ⟨by rw [hleave, hredraw.ring], hredraw.stageKept.trans ?_⟩
    simp only [leftRingLeave, val_bind, val_pure]
    split <;> exact ⟨rfl, rfl, SameFlags.refl _⟩
  · have hzero : s.ring.huanleftflag = 0 := not_not.mp hflag
    simp only [leftRing, val_onlyIf, if_neg hflag, RingState.driveLeft, hzero]
    exact ⟨by simp, StageKept.refl s⟩

theorem rightRing_spec (g : RingSigns)
    (hg : g.rightCorner = rightCornerSeen (rightRingRedraw s).val) :
    (rightRing s).val.ring = s.ring.driveRight g ∧ StageKept s (rightRing s).val := by
  by_cases hflag : s.f2.huanrightflag ≠ 0
  · have hredraw : Redrawn s (rightRingRedraw s).val := rightRingRedraw_redrawn
    have hleave := rightRingLeave_ring g hg (by rw [hredraw.f2]; exact hflag)
    simp only [rightRing, val_onlyIf, if_pos hflag, val_bind]
    refine ⟨by rw [hleave, hredraw.ring], hredraw.stageKept.trans ?_⟩
    simp only [rightRingLeave, val_bind, val_pure]
    split <;> exact ⟨rfl, rfl, SameFlags.refl _⟩
  · have hzero : s.ring.huanrightflag = 0 := not_not.mp hflag
    simp only [rightRing, val_onlyIf, if_neg hflag, RingState.driveRight, hzero]
    exact ⟨by simp, StageKept.refl s⟩

/-- The ring block drives the left ring, then the right one. -/
theorem ringBlock_spec (g : RingSigns)
    (hleft : g.leftCorner = leftCornerSeen (leftRingRedraw s).val)
    (hright : g.rightCorner = rightCornerSeen (rightRingRedraw (leftRing s).val).val) :
    (ringBlock img s).val.ring = (s.ring.driveLeft g).driveRight g ∧
      StageKept s (ringBlock img s).val := by
  obtain ⟨hring₁, hkept₁⟩ := leftRing_spec g hleft
  obtain ⟨hring₂, hkept₂⟩ := rightRing_spec g hright
  by_cases hflag : s.f2.huanleftflag ≠ 0 ∨ s.f2.huanrightflag ≠ 0
  · simp only [ringBlock, ringCompensate, val_onlyIf, if_pos hflag, val_bind, val_pure]
    generalize (rightRing (leftRing s).val).val = t at hring₂ hkept₂ ⊢
    refine ⟨?_, hkept₁.trans (hkept₂.trans ⟨rfl, rfl, SameFlags.refl _⟩)⟩
    rw [← hring₁, ← hring₂]
    simp [Lines.ring, findToppoint_marks]
  · have hzero : s.ring.huanleftflag = 0 ∧ s.ring.huanrightflag = 0 := by
      simp only [Lines.ring, Findline2.marks]
      omega
    have hdrive : (s.ring.driveLeft g).driveRight g = s.ring := by
      simp [RingState.driveLeft, RingState.driveRight, hzero]
    simp only [ringBlock, val_onlyIf, if_neg hflag, hdrive]
    exact ⟨trivial, StageKept.refl s⟩

theorem leftHuanExit_val : (leftHuanExit s).val = if leftExitSeen s then
    { s with js7 := 1, js3 := 0, f2 := { s.f2 with huanleftflag := 0 } } else s := rfl

theorem rightHuanExit_val : (rightHuanExit s).val = if rightExitSeen s then
    { s with js8 := 1, js4 := 0, f2 := { s.f2 with huanrightflag := 0 } } else s := rfl

theorem awaitLeft_spec (g : RingSigns) (hg : g.leftExit = leftExitSeen s) :
    (onlyIf (s.js3 = 1) leftHuanExit s).val.ring = s.ring.awaitLeft g ∧
      StageKept s (onlyIf (s.js3 = 1) leftHuanExit s).val := by
  by_cases hexit : s.js3 = 1 ∧ leftExitSeen s = true
  · simp [leftHuanExit_val, RingState.awaitLeft, Lines.ring, Findline2.marks, hg, hexit]
    exact ⟨rfl, rfl, SameFlags.refl _⟩
  · have hval : (onlyIf (s.js3 = 1) leftHuanExit s).val = s := by
      rw [val_onlyIf, leftHuanExit_val]
      split
      next hthree => exact if_neg fun hseen => hexit ⟨hthree, hseen⟩
      next => rfl
    have hring : ¬ (s.ring.js3 = 1 ∧ leftExitSeen s = true) := hexit
    rw [hval, RingState.awaitLeft, hg, if_neg hring]
    exact ⟨rfl, StageKept.refl s⟩

theorem awaitRight_spec (g : RingSigns) (hg : g.rightExit = rightExitSeen s) :
    (onlyIf (s.js4 = 1) rightHuanExit s).val.ring = s.ring.awaitRight g ∧
      StageKept s (onlyIf (s.js4 = 1) rightHuanExit s).val := by
  by_cases hexit : s.js4 = 1 ∧ rightExitSeen s = true
  · simp [rightHuanExit_val, RingState.awaitRight, Lines.ring, Findline2.marks, hg, hexit]
    exact ⟨rfl, rfl, SameFlags.refl _⟩
  · have hval : (onlyIf (s.js4 = 1) rightHuanExit s).val = s := by
      rw [val_onlyIf, rightHuanExit_val]
      split
      next hfour => exact if_neg fun hseen => hexit ⟨hfour, hseen⟩
      next => rfl
    have hring : ¬ (s.ring.js4 = 1 ∧ rightExitSeen s = true) := hexit
    rw [hval, RingState.awaitRight, hg, if_neg hring]
    exact ⟨rfl, StageKept.refl s⟩

theorem huanBlock_spec (g : RingSigns) (hleft : g.leftExit = leftExitSeen s.clearShizi)
    (hright : g.rightExit =
      rightExitSeen (onlyIf (s.clearShizi.js3 = 1) leftHuanExit s.clearShizi).val) :
    (huanBlock s).val.ring = s.ring.await g ∧ StageKept s (huanBlock s).val := by
  obtain ⟨hring₁, hkept₁⟩ := awaitLeft_spec g hleft
  obtain ⟨hring₂, hkept₂⟩ := awaitRight_spec g hright
  have hclear : s.clearShizi.ring = s.ring.clearShizi := rfl
  by_cases hhuan : s.f2.huan = 1
  · have hring : s.ring.huan = 1 := hhuan
    have hval : (huanBlock s).val = (onlyIf
        ((onlyIf (s.clearShizi.js3 = 1) leftHuanExit s.clearShizi).val.js4 = 1) rightHuanExit
        (onlyIf (s.clearShizi.js3 = 1) leftHuanExit s.clearShizi).val).val := by
      simp only [huanBlock, val_onlyIf (s.f2.huan = 1), if_pos hhuan, val_bind]
      rfl
    rw [hval, hring₂, hring₁, hclear, RingState.await, if_pos hring]
    refine ⟨rfl, ?_⟩
    have hkept : StageKept s s.clearShizi := ⟨rfl, rfl, SameFlags.refl _⟩
    exact hkept.trans (hkept₁.trans hkept₂)
  · have hring : s.ring.huan ≠ 1 := hhuan
    simp only [huanBlock, val_onlyIf, if_neg hhuan, RingState.await, if_neg hring]
    exact ⟨trivial, StageKept.refl s⟩

theorem huanExitBlock_spec (short : Int) (g : RingSigns)
    (hg : g.straight = straightSeen short (exitRedraw s.clearTurns).val) :
    (huanExitBlock short s).val.ring = s.ring.leave g ∧
      StageKept s (huanExitBlock short s).val := by
  have hredraw : Redrawn s.clearTurns (exitRedraw s.clearTurns).val := exitRedraw_redrawn
  have hclear : (exitRedraw s.clearTurns).val.ring = s.ring.clearShizi := hredraw.ring
  have hturns : StageKept s s.clearTurns := ⟨rfl, rfl, SameFlags.refl _⟩
  have hkept : StageKept s (exitRedraw s.clearTurns).val := hturns.trans hredraw.stageKept
  by_cases hexit : s.js7 ≠ 0 ∨ s.js8 ≠ 0
  · have hring : s.ring.js7 ≠ 0 ∨ s.ring.js8 ≠ 0 := hexit
    simp only [huanExitBlock, huanExit, val_onlyIf, if_pos hexit, val_bind, val_pure,
      RingState.leave, if_pos hring, hg]
    unfold straightSeen
    generalize (exitRedraw s.clearTurns).val = t at hclear hkept ⊢
    by_cases hstraight : (countBothFound t.f1).val > 40 ∧ short ≠ 0
    · rw [if_pos hstraight, if_pos (by simpa using hstraight), ← hclear]
      exact ⟨rfl, hkept.trans ⟨rfl, rfl, SameFlags.refl _⟩⟩
    · rw [if_neg hstraight, if_neg (by simpa using hstraight)]
      exact ⟨hclear, hkept⟩
  · have hring : ¬ (s.ring.js7 ≠ 0 ∨ s.ring.js8 ≠ 0) := hexit
    simp only [huanExitBlock, val_onlyIf, if_neg hexit, RingState.leave, if_neg hring]
    exact ⟨trivial, StageKept.refl s⟩

/-! ## Frames -/

/-- The evidence on which a left ring is entered, in the state `s` that
`findline1` left. -/
structure LeftEvidence (fr : Frame) (s : Lines) : Prop where
  corners : Stage1 (cornersOf fr s).val.f2.leftguaiflag (cornersOf fr s).val.f2.rightguaiflag
    s.f1.rightlineflag s.f2.toppoint
  rows : 3 ≤ countRows (fun i => (leftHuan2At s.f1 i).val) s.f2.toppoint 95
  island : ∃ i, 35 < i ∧ i ≤ 100 ∧ (leftHuan3At fr.image s.f1 i).val = true

/-- The evidence on which a right ring is entered. -/
structure RightEvidence (fr : Frame) (s : Lines) : Prop where
  corners : Stage1 (cornersOf fr s).val.f2.rightguaiflag (cornersOf fr s).val.f2.leftguaiflag
    s.f1.leftlineflag s.f2.toppoint
  rows : 3 ≤ countRows (fun i => (rightHuan2At s.f1 i).val) s.f2.toppoint 95
  island : ∃ i, 35 < i ∧ i ≤ 100 ∧ (rightHuan3At fr.image s.f1 i).val = true

theorem cornersOf_ring : (cornersOf fr s).val.ring = s.ring ∧
    (cornersOf fr s).val.js1 = s.js1 ∧ (cornersOf fr s).val.js2 = s.js2 ∧
    (cornersOf fr s).val.f1 = s.f1 ∧ (cornersOf fr s).val.f2.toppoint = s.f2.toppoint := by
  obtain ⟨f2, hval, hmarks, htop⟩ := cornersOf_spec fr (s := s)
  rw [hval]
  exact ⟨by simp [Lines.ring, hmarks, clearFrame], rfl, rfl, rfl, htop⟩

/-- The corner block counts and may reach stage 1. -/
theorem judged_spec (hjs1 : s.js1 = 0) (hjs2 : s.js2 = 0) :
    CornerSpec (cornersOf fr s).val (cornerBlock (cornersOf fr s).val).val := by
  obtain ⟨-, h₁, h₂, -⟩ := cornersOf_ring fr (s := s)
  exact cornerBlock_spec (h₁.trans hjs1) (h₂.trans hjs2)

theorem judged_ring (hjs1 : s.js1 = 0) (hjs2 : s.js2 = 0) :
    (cornerBlock (cornersOf fr s).val).val.ring = s.ring.count (frameSigns fr s) := by
  rw [(judged_spec fr hjs1 hjs2).ring (frameSigns fr s) rfl, (cornersOf_ring fr).1]

theorem stages_spec (hjs1 : s.js1 = 0) (hjs2 : s.js2 = 0) :
    RingStagesSpec fr.image (cornerBlock (cornersOf fr s).val).val (stagesOf fr s).val :=
  ringStages_spec fr.image (judged_spec fr hjs1 hjs2).stage

theorem entered_spec (hjs1 : s.js1 = 0) (hjs2 : s.js2 = 0) :
    (ringFlags (stagesOf fr s).val).ring =
        (s.ring.count (frameSigns fr s)).detect (frameSigns fr s) ∧
      (ringFlags (stagesOf fr s).val).js1 = 0 ∧ (ringFlags (stagesOf fr s).val).js2 = 0 ∧
      (ringFlags (stagesOf fr s).val).f1 = s.f1 := by
  obtain ⟨hring, h₁, h₂, hf1⟩ := ringFlags_spec fr.image (stages_spec fr hjs1 hjs2)
    (frameSigns fr s) rfl rfl
  refine ⟨?_, h₁, h₂, ?_⟩
  · rw [hring, judged_ring fr hjs1 hjs2]
  · rw [hf1, (judged_spec fr hjs1 hjs2).f1, (cornersOf_ring fr).2.2.2.1]

theorem leftEvidence_of_stage (hjs1 : s.js1 = 0) (hjs2 : s.js2 = 0)
    (h : (stagesOf fr s).val.js1 = 3) : LeftEvidence fr s := by
  have hjudged := judged_spec fr hjs1 hjs2
  obtain ⟨-, -, -, hf1, htop⟩ := cornersOf_ring fr (s := s)
  obtain ⟨hone, hrows, hisland⟩ := (stages_spec fr hjs1 hjs2).left h
  have hcorner := hjudged.left hone
  rw [hjudged.f1, hjudged.toppoint, hf1, htop] at hrows
  rw [hjudged.f1, hf1] at hisland
  rw [hf1, htop] at hcorner
  exact ⟨hcorner, hrows, hisland⟩

theorem rightEvidence_of_stage (hjs1 : s.js1 = 0) (hjs2 : s.js2 = 0)
    (h : (stagesOf fr s).val.js2 = 3) : RightEvidence fr s := by
  have hjudged := judged_spec fr hjs1 hjs2
  obtain ⟨-, -, -, hf1, htop⟩ := cornersOf_ring fr (s := s)
  obtain ⟨hone, hrows, hisland⟩ := (stages_spec fr hjs1 hjs2).right h
  have hcorner := hjudged.right hone
  rw [hjudged.f1, hjudged.toppoint, hf1, htop] at hrows
  rw [hjudged.f1, hf1] at hisland
  rw [hf1, htop] at hcorner
  exact ⟨hcorner, hrows, hisland⟩

theorem rings_spec (hjs1 : s.js1 = 0) (hjs2 : s.js2 = 0) :
    (ringsOf fr s).val.ring = (((s.ring.count (frameSigns fr s)).detect
        (frameSigns fr s)).driveLeft (frameSigns fr s)).driveRight (frameSigns fr s) ∧
      StageKept (ringFlags (stagesOf fr s).val) (ringsOf fr s).val := by
  obtain ⟨hring, -⟩ := entered_spec fr hjs1 hjs2
  rw [← hring]
  exact ringBlock_spec fr.image (frameSigns fr s) rfl rfl

theorem awaited_spec (hjs1 : s.js1 = 0) (hjs2 : s.js2 = 0) :
    (huanBlock (ringsOf fr s).val).val.ring = ((((s.ring.count (frameSigns fr s)).detect
        (frameSigns fr s)).driveLeft (frameSigns fr s)).driveRight (frameSigns fr s)).await
          (frameSigns fr s) ∧
      StageKept (ringFlags (stagesOf fr s).val) (huanBlock (ringsOf fr s).val).val := by
  obtain ⟨hring, hkept⟩ := rings_spec fr hjs1 hjs2
  obtain ⟨hring', hkept'⟩ := huanBlock_spec (s := (ringsOf fr s).val) (frameSigns fr s) rfl rfl
  exact ⟨by rw [hring', hring], hkept.trans hkept'⟩

/-- `findline2` makes one step of the ring machine, leaves no stage behind and
does not touch the edge flags. -/
theorem findline2_spec (hjs1 : s.js1 = 0) (hjs2 : s.js2 = 0) :
    (findline2 fr s).val.ring = s.ring.step (frameSigns fr s) ∧
      (findline2 fr s).val.js1 = 0 ∧ (findline2 fr s).val.js2 = 0 ∧
      SameFlags s.f1 (findline2 fr s).val.f1 := by
  obtain ⟨-, h₁, h₂, hf1⟩ := entered_spec fr hjs1 hjs2
  obtain ⟨hring, hkept⟩ := awaited_spec fr hjs1 hjs2
  obtain ⟨hleave, hkept'⟩ := huanExitBlock_spec (s := (huanBlock (ringsOf fr s).val).val)
    fr.shortstraightFlag (frameSigns fr s) rfl
  have hturn : Redrawn (huanExitBlock fr.shortstraightFlag (huanBlock (ringsOf fr s).val).val).val
      (compensated fr s).val := turnCompensate_redrawn
  have hall := (hkept.trans hkept').trans hturn.stageKept
  have hend : (findline2 fr s).val.ring = (compensated fr s).val.ring := by
    simp [findline2, Lines.ring, findToppoint_marks]
  refine ⟨?_, hall.js1.trans h₁, hall.js2.trans h₂, ?_⟩
  · rw [hend, hturn.ring, hleave, hring]
    rfl
  · rw [← hf1]
    exact hall.flags

/-- Nothing calls for a compensation, so none of the blocks after the ring
detection redraws anything. -/
def Quiet (t : Lines) : Prop :=
  (t.f2.huanleftflag = 0 ∧ t.f2.huanrightflag = 0) ∧ t.f2.huan = 0 ∧
    (t.js7 = 0 ∧ t.js8 = 0) ∧ t.f2.leftturnflag = 0 ∧ t.f2.rightturnflag = 0

instance : DecidablePred Quiet := fun _ => inferInstanceAs (Decidable (_ ∧ _))

theorem findline2_f1_of_quiet (hjs1 : s.js1 = 0) (hjs2 : s.js2 = 0)
    (hquiet : Quiet (ringFlags (stagesOf fr s).val)) : (findline2 fr s).val.f1 = s.f1 := by
  obtain ⟨-, -, -, hf1⟩ := entered_spec fr hjs1 hjs2
  set t := ringFlags (stagesOf fr s).val with ht
  obtain ⟨⟨hleft, hright⟩, hhuan, ⟨hjs7, hjs8⟩, hturn⟩ := hquiet
  have hrings : (ringsOf fr s).val = t := by
    change (ringBlock fr.image t).val = t
    simp [ringBlock, hleft, hright]
  have hblock : (huanBlock t).val = t := by simp [huanBlock, hhuan]
  have hexit : (huanExitBlock fr.shortstraightFlag t).val = t := by
    simp [huanExitBlock, hjs7, hjs8]
  have hcompensated : (compensated fr s).val = t := by
    change (turnCompensate (huanExitBlock fr.shortstraightFlag
      (huanBlock (ringsOf fr s).val).val).val).val = t
    rw [hrings, hblock, hexit]
    simp [turnCompensate, hturn]
  rw [← hf1, ← hcompensated]
  rfl

/-- `findline1` works on the arrays, `toppoint` and `column_start` only. -/
theorem findline1_rest : ∃ f1 found columnStart, (findline1 fr s).val =
    { s with f1, columnStart,
             f2 := { s.f2 with toppoint := 0, toppointFlag := 0 }.setToppoint found } := by
  obtain ⟨found, hval, -⟩ := findToppoint_val fr.image (findline1Rows fr s).val.f1
    (findline1Rows fr s).val.f2
  refine ⟨(findline1Rows fr s).val.f1, found, (findline1Rows fr s).val.columnStart, ?_⟩
  have hflag : (findline1Rows fr s).val.f2.toppointFlag = 0 := rfl
  simp only [findline1, val_bind, hflag, if_true, val_pure, hval]
  rfl

theorem findline1_ring : (findline1 fr s).val.ring = s.ring ∧
    (findline1 fr s).val.js1 = s.js1 ∧ (findline1 fr s).val.js2 = s.js2 := by
  obtain ⟨f1, found, columnStart, hval⟩ := findline1_rest fr (s := s)
  rw [hval]
  refine ⟨?_, rfl, rfl⟩
  cases found <;> rfl

/-- One frame is one step of the ring machine. -/
theorem nextFrame_ring (hjs1 : s.js1 = 0) (hjs2 : s.js2 = 0) :
    (nextFrame fr s).ring = s.ring.step (frameSigns fr (findline1 fr s).val) ∧
      (nextFrame fr s).js1 = 0 ∧ (nextFrame fr s).js2 = 0 := by
  obtain ⟨hring, h₁, h₂⟩ := findline1_ring fr (s := s)
  obtain ⟨hstep, hjs1', hjs2', -⟩ := findline2_spec fr (h₁.trans hjs1) (h₂.trans hjs2)
  rw [hring] at hstep
  exact ⟨hstep, hjs1', hjs2'⟩

/-- No stage survives a frame. -/
theorem reachable_stages {s : Lines} (hs : Reachable s) : s.js1 = 0 ∧ s.js2 = 0 := by
  obtain ⟨frames, rfl⟩ := hs
  exact run_invariant (fun s : Lines => s.js1 = 0 ∧ s.js2 = 0)
    (fun fr s h => (nextFrame_ring fr h.1 h.2).2) ⟨rfl, rfl⟩ frames

end Blocks

end SmartCar
