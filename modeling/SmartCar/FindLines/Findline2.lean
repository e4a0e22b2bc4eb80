import SmartCar.FindLines.EdgeSearch
import SmartCar.FindLines.Detect
import SmartCar.FindLines.Compensate
import SmartCar.Imperative.Run

/-!
# `findline2` and runs of frames

`findline2` is the composition of its blocks in source order. A run feeds
frames to `findline1` and then `findline2`, starting from the zero-initialised
globals.
-/

namespace SmartCar

open Imperative Logged

/-- The assignments at the head of `findline2`. -/
def clearFrame (s : Lines) : Lines :=
  { s with
    L := 0
    R := 0
    f2 := { s.f2 with
      leftturnflag := 0, leftturnRow := 0, rightturnflag := 0, rightturnRow := 0
      leftguaiflag := 0, leftguaiColumn := 0, leftguaiRow := 0
      rightguaiflag := 0, rightguaiColumn := 0, rightguaiRow := 0
      lefthuanguaiflag := 0, lefthuanguaiColumn := 0, lefthuanguaiRow := 0
      righthuanguaiflag := 0, righthuanguaiColumn := 0, righthuanguaiRow := 0 } }

/-- Corners and turns: the calls of `find_guai`, `find_curve1`, `find_curve3`. -/
def findCorners (loseCnt : Int) (s : Lines) : Logged Access Lines := do
  let f2 ← onlyIf (s.f2.leftguaiflag = 0 ∧ s.f2.rightguaiflag = 0) (findGuai s.f1) s.f2
  let f2 ← onlyIf (f2.toppoint ≠ 0) (findCurve1 loseCnt s.f1) f2
  let f2 ← onlyIf
    (f2.toppoint ≠ 0 ∧ f2.toppoint < 95 ∧ f2.leftturnflag = 0 ∧ f2.rightturnflag = 0)
    (findCurve3 s.f1) f2
  return { s with f2 }

/-- Of two crossed corners only the nearer one is kept. -/
def keepNearGuai (f2 : Findline2) : Findline2 :=
  if f2.leftguaiflag = 1 ∧ f2.rightguaiflag = 1 then
    -- a larger row is nearer to the car
    let f2 := if f2.leftguaiRow > f2.rightguaiRow ∧ f2.leftguaiColumn > f2.rightguaiColumn
      then { f2 with rightguaiflag := 0 } else f2
    if f2.rightguaiRow > f2.leftguaiRow ∧ f2.leftguaiColumn > f2.rightguaiColumn
      then { f2 with leftguaiflag := 0 } else f2
  else f2

/-- The corners that survive `shizi_judge`, the arbitration of crossed corners
and `both_row_lose_judge`. -/
def judgeGuai (f1 : Findline1) (f2 : Findline2) : Logged Access Findline2 := do
  let f2 ← shiziJudge f1 f2
  bothRowLoseJudge f1 (keepNearGuai f2)

/-- One more frame with a corner: the crossing counter advances, the fourth such
frame confirms the crossing. -/
def advanceShizi (f2 : Findline2) : Findline2 :=
  let f2 := if f2.shiziflag1 = 0 then { f2 with shiziflag0 := f2.shiziflag0 + 1 } else f2
  if f2.shiziflag0 = 4 then { f2 with shiziflag1 := 1, shiziflag0 := 0 } else f2

def dropTurns (f2 : Findline2) : Findline2 :=
  if f2.leftturnflag ≠ 0 ∨ f2.rightturnflag ≠ 0 then
    { f2 with leftturnflag := 0, rightturnflag := 0 }
  else f2

/-- A surviving corner counts towards a crossing and drops the turn flags. -/
def countShizi (f2 : Findline2) : Findline2 :=
  if f2.leftguaiflag = 1 ∨ f2.rightguaiflag = 1 then dropTurns (advanceShizi f2) else f2

/-- Corners whose flag is 0 lose their coordinates as well. -/
def dropGuai (f2 : Findline2) : Findline2 :=
  let f2 := if f2.leftguaiflag = 0 then f2.clearLeftguai else f2
  if f2.rightguaiflag = 0 then f2.clearRightguai else f2

/-- The corner block of `findline2`. -/
def cornerBlock (s : Lines) : Logged Access Lines :=
  onlyIf (s.f2.leftguaiflag = 1 ∨ s.f2.rightguaiflag = 1) (fun s => do
    let s ← findHuan1 s
    let f2 ← judgeGuai s.f1 s.f2
    return { s with f2 := dropGuai (countShizi f2) }) s

/-- The second and third stage of the ring detection. -/
def ringStages (img : Image) (s : Lines) : Logged Access Lines := do
  let s ← onlyIf (s.js1 = 1 ∨ s.js2 = 1) findHuan2 s
  onlyIf (s.js1 = 2 ∨ s.js2 = 2) (findHuan3 img) s

def rightRingFlag (s : Lines) : Lines :=
  if s.js2 = 3 then { s with js2 := 0, f2 := { s.f2 with huanrightflag := 1 } } else s

def leftRingFlag (s : Lines) : Lines :=
  if s.js1 = 3 then { s with js1 := 0, f2 := { s.f2 with huanleftflag := 1 } } else s

/-- A detection that reached stage 3 sets the ring flag of its side. -/
def ringFlags (s : Lines) : Lines :=
  if s.js1 = 3 ∨ s.js2 = 3 then leftRingFlag (rightRingFlag s) else s

/-- The ring block of `findline2`. -/
def ringBlock (img : Image) (s : Lines) : Logged Access Lines :=
  onlyIf (s.f2.huanleftflag ≠ 0 ∨ s.f2.huanrightflag ≠ 0) (fun s => do
    let s ← ringCompensate s
    let f2 ← findToppoint img s.f1 s.f2
    return { s with f2 }) s

/-- The row at which the exit of a left ring is recognised. -/
def leftExitAt (s : Lines) (i : Int) : Logged Access Bool :=
  Logged.check (s.f2.righthuanguaiflag = 0) <&&> (s.f1.right i).gt (s.f1.right (i + 2)) <&&>
  (s.f1.right i).gt (s.f1.right (i + 3))

/-- The row at which the exit of a right ring is recognised. -/
def rightExitAt (s : Lines) (i : Int) : Logged Access Bool :=
  Logged.check (s.f2.lefthuanguaiflag = 0) <&&> (s.f1.left i).gt (s.f1.left (i + 2)) <&&>
  (s.f1.left i).gt (s.f1.left (i + 3))

/-- From `js3` to `js7` once the exit is in view. -/
def leftHuanExit (s : Lines) : Logged Access Lines := do
  let found ← scanDown 95 s.f2.toppoint (leftExitAt s)
  return if found.isSome then
      { s with js7 := 1, js3 := 0, f2 := { s.f2 with huanleftflag := 0 } }
    else s

/-- From `js4` to `js8` once the exit is in view. -/
def rightHuanExit (s : Lines) : Logged Access Lines := do
  let found ← scanDown 95 s.f2.toppoint (rightExitAt s)
  return if found.isSome then
      { s with js8 := 1, js4 := 0, f2 := { s.f2 with huanrightflag := 0 } }
    else s

/-- The block `f2.huan == 1` of `findline2`. -/
def huanBlock (s : Lines) : Logged Access Lines :=
  onlyIf (s.f2.huan = 1) (fun s => do
    let s ← onlyIf (s.js3 = 1) leftHuanExit s.clearShizi
    onlyIf (s.js4 = 1) rightHuanExit s) s

/-- The exit block of `findline2`. -/
def huanExitBlock (shortstraightFlag : Int) (s : Lines) : Logged Access Lines :=
  onlyIf (s.js7 ≠ 0 ∨ s.js8 ≠ 0) (huanExit shortstraightFlag) s

/-- `column_start` limited to 10..150. -/
def limitColumnStart (c : Int) : Int :=
  let c := if c > 150 then 150 else c
  if c < 10 then 10 else c

/-! ## The stages of `findline2` -/

/-- `findline2` up to the corner block. -/
def cornersOf (fr : Frame) (s : Lines) : Logged Access Lines :=
  findCorners fr.loseCnt (clearFrame s)

/-- `findline2` up to the ring stages. -/
def stagesOf (fr : Frame) (s : Lines) : Logged Access Lines := do
  let s ← cornerBlock (← cornersOf fr s)
  ringStages fr.image s

/-- `findline2` up to the block `f2.huan == 1`. -/
def ringsOf (fr : Frame) (s : Lines) : Logged Access Lines := do
  ringBlock fr.image (ringFlags (← stagesOf fr s))

/-- `findline2` up to its last call of `find_toppoint`. -/
def compensated (fr : Frame) (s : Lines) : Logged Access Lines := do
  let s ← huanBlock (← ringsOf fr s)
  turnCompensate (← huanExitBlock fr.shortstraightFlag s)

def findline2 (fr : Frame) (s : Lines) : Logged Access Lines := do
  let s ← compensated fr s
  let f2 ← findToppoint fr.image s.f1 s.f2
  let m ← s.f1.mid 118
  return { s with f2, columnStart := limitColumnStart m }

/-- The states between the blocks of `findline2`, in source order. -/
def findline2States (fr : Frame) (s : Lines) : List Lines :=
  let corners := (cornersOf fr s).val
  let judged := (cornerBlock corners).val
  let stages := (ringStages fr.image judged).val
  let rings := (ringBlock fr.image (ringFlags stages)).val
  let huan := (huanBlock rings).val
  let exited := (huanExitBlock fr.shortstraightFlag huan).val
  [clearFrame s, corners, judged, stages, ringFlags stages, rings, huan, exited,
    (turnCompensate exited).val, (findline2 fr s).val]

/-! ## Runs -/

/-- One frame: `findline1`, then `findline2`. -/
def processFrame (fr : Frame) (s : Lines) : Logged Access Lines := do
  findline2 fr (← findline1 fr s)

/-- The globals after one frame. -/
def nextFrame (fr : Frame) (s : Lines) : Lines := (processFrame fr s).val

/-- The globals after a run of frames. -/
def afterFrames (frames : List Frame) : Lines := run nextFrame Lines.init frames

/-- States at a frame boundary of some run. -/
def Reachable (s : Lines) : Prop := ∃ frames, afterFrames frames = s

end SmartCar
