import SmartCar.FindLines.Findline2
import SmartCar.Imperative.History
import SmartCar.Numeric.Mean

/-!
# `distinguish.c` and `wheel_update`

The steering error, the classification of the road with its choice of a speed,
and the stop judgement, in the order in which the main loop calls them; and the
update of a wheel. The log records the cells of the four history arrays. The
`float` arithmetic is taken as exact, over the rationals; `f1` and the image are
read at fixed rows and are not logged again here.
-/

namespace SmartCar

open Imperative Logged Numeric

/-! ## Globals -/

/-- A cell of one of the history arrays. -/
inductive Cell where
  | stopCar (i : Int)
  | roadType (i : Int)
  | steerError (i : Int)
  | speedNow (i : Int)
deriving DecidableEq

/-- The cell lies inside the array as declared. -/
def Cell.InArray : Cell → Prop
  | .stopCar i => 0 ≤ i ∧ i < 20
  | .roadType i => 0 ≤ i ∧ i < 200
  | .steerError i => 0 ≤ i ∧ i < 30
  | .speedNow i => 0 ≤ i ∧ i < 5

instance : DecidablePred Cell.InArray := fun c =>
  match c with
  | .stopCar _ | .roadType _ | .steerError _ | .speedNow _ => inferInstanceAs (Decidable (_ ∧ _))

/-- The entries of `road_type`; 0, `unset`, before the first frame. -/
inductive RoadType where
  | unset
  | longStraight
  | shortStraight
  | curve
  | loop
  | cross
deriving DecidableEq

/-- The speeds that can be set from the shell: `s_zhi`, `s_max`, `s_wan1`,
`s_wan2`, `s_cross` and `s_huan`. -/
structure Speeds where
  sZhi : Int
  sMax : Int
  sWan1 : Int
  sWan2 : Int
  sCross : Int
  sHuan : Int

/-- Their initial values. -/
def Speeds.init : Speeds := ⟨200, 200, 170, 150, 200, 100⟩

/-- The globals of `distinguish.c` that the main loop computes. -/
structure Drive where
  gHighestSpeed : Int
  gLowestSpeed : Int
  speedSet : Int
  steerError : Int → Int
  steerErrorAve : Int
  steerErrorL : Int
  steerErrorLl : Int
  stopCar : Int → Int
  stopCarFlag : Int
  roadType : Int → RoadType
  shortstraightFlag : Int
  longStraightFlag : Int
  stdDeviation : Int

def Drive.init : Drive :=
  ⟨0, 0, 0, fun _ => 0, 0, 0, 0, fun _ => 0, 0, fun _ => .unset, 0, 0, 0⟩

/-! ## The steering error -/

/-- The initialiser of `mid_line_weight`. -/
def midLineWeightTable : List ℚ :=
  [0, 0, 0, 0, 0, 0, 0, 0, 0, 0,
   0, 0, 0, 0, 0, 0, 0, 0, 0, 0,
   0, 0, 0, 0, 0, 0, 0, 0, 0, 0,
   0, 0, 0, 0, 0, 0, 0, 0, 0, 0,
   1, 1, 1, 1, 1, 1, 1, 1, 1, 1,
   1, 1, 1, 1, 1, 1, 1, 1, 1, 1,
   1.3, 1.3, 1.3, 1.3, 1.3, 1.3, 1.3, 1.3, 1.3, 1.3,
   1.8, 1.8, 1.8, 1.8, 1.8, 1.8, 1.8, 1.8, 1.8, 1.8,
   2.5, 2.5, 2.5, 2.5, 2.5, 2.5, 2.5, 2.5, 2.5, 2.5,
   2.5, 2.5, 2.5, 2.5, 2.5, 2.5, 2.5, 2.5, 2.5, 2.5,
   2.5, 2.5, 2.5, 2.5, 2.5, 2.5, 2.5, 2.5, 2.5, 2.5,
   0, 0, 0, 0, 0, 0, 0, 0, 0, 0]

def midLineWeight (i : Int) : ℚ := midLineWeightTable.getD i.toNat 0

/-- `CenterSum` and `WeightSum` after the loop of `compute_error`. -/
def centerSums (f : Findline1) (toppoint : Int) : ℚ × ℚ :=
  (foldDown (ε := Cell) 119 toppoint (0, 0) fun i sums =>
    return (sums.1 + f.midline i * midLineWeight i, sums.2 + midLineWeight i)).val

def centerMeanValue (f : Findline1) (toppoint : Int) : ℚ :=
  let (centerSum, weightSum) := centerSums f toppoint
  if weightSum ≠ 0 then centerSum / weightSum else 0

/-- `steer_error[0]` before it is limited. -/
def rawError (f : Findline1) (toppoint : Int) : Int :=
  truncate (centerMeanValue f toppoint - 80)

/-- The limits of `compute_error`: 80 to either side, and 15 from the error of the
frame before. -/
def limitError (e last : Int) : Int :=
  let e := if e > 80 then 80 else e
  let e := if e < -80 then -80 else e
  let e := if e - last > 15 then last + 15 else e
  if e - last < -15 then last - 15 else e

def computeError (s : Lines) (d : Drive) : Logged Cell Drive := do
  Logged.touch (.steerError 0)
  let last ← Logged.read (.steerError 1) (d.steerError 1)
  let e := limitError (rawError s.f1 s.f2.toppoint) last
  let (steerError, _) ← shift .steerError 29 (Function.update d.steerError 0 e) (fun _ u => u) ()
  return { d with
    steerError, steerErrorAve := steerError 0, steerErrorLl := d.steerErrorL
    steerErrorL := steerError 0 }

/-! ## Straight or curved -/

/-- The variance in `solve_midline_slope`: the mean of the squared distances to
the mean, over rows 100 to 31. -/
def midlineVariance (f : Findline1) : ℚ :=
  let sum₁ : Int := (foldDown (ε := Cell) 100 30 0 fun i sum => return sum + f.midline i).val
  let av : ℚ := sum₁ / 70
  let sum₂ : ℚ := (foldDown (ε := Cell) 100 30 0 fun i sum =>
    return sum + (f.midline i - av) * (f.midline i - av)).val
  sum₂ / 70

/-- `(int16)solve_midline_slope()`. -/
def solveMidlineSlope (f : Findline1) : Int := isqrt (midlineVariance f)

def shortStraightJudge (f : Findline1) (d : Drive) : Drive :=
  let d := { d with stdDeviation := solveMidlineSlope f }
  if d.stdDeviation ≤ 6 then { d with shortstraightFlag := 1 }
  else if d.stdDeviation ≤ 11 then { d with shortstraightFlag := 2 }
  else d

/-- `flag1`: no row of 118 to 36 has its centre more than 8 columns from 80. -/
def midlineCentred (f : Findline1) : Bool :=
  (scanDown (ε := Cell) 118 35 fun i =>
    Logged.check (f.midline i > 88 ∨ f.midline i < 72)).val.isNone

/-- `lose_cnt`: the rows of 100 to 36 that have lost an edge. -/
def countLostRows (f : Findline1) : Int :=
  (foldDown (ε := Cell) 100 35 0 fun i lose =>
    return if f.leftlineflag i = 0 ∨ f.rightlineflag i = 0 then lose + 1 else lose).val

def longStraightJudge (s : Lines) (d : Drive) : Drive :=
  if s.f2.toppoint ≤ 37 ∧ midlineCentred s.f1 = true ∧ countLostRows s.f1 ≤ 3 then
    { d with longStraightFlag := 1 }
  else d

/-! ## The choice of a speed -/

/-- `road_type[i] == t`. -/
def Drive.roadIs (d : Drive) (i : Int) (t : RoadType) : Logged Cell Bool :=
  Logged.read (.roadType i) (decide (d.roadType i = t))

/-- `road_type[0] = t`. -/
def Drive.record (d : Drive) (t : RoadType) : Logged Cell Drive := do
  Logged.touch (.roadType 0)
  return { d with roadType := Function.update d.roadType 0 t }

/-- A ring is being driven, or its exit awaited. -/
def Findline2.onLoop (f2 : Findline2) : Prop :=
  f2.huanleftflag ≠ 0 ∨ f2.huanrightflag ≠ 0 ∨ f2.huan = 1

instance (f2 : Findline2) : Decidable f2.onLoop := inferInstanceAs (Decidable (_ ∨ _))

/-- A store to an `int16`, the type of `speed_set`. -/
def toInt16 (x : Int) : Int := x.bmod (2 ^ 16)

/-- The speed on a short straight before it is stored. -/
def shortStraightTaper (v : Speeds) (steerErrorAve : Int) : Int :=
  v.sZhi - (v.sZhi - v.sWan1) * (steerErrorAve.natAbs : Int).tdiv 35

def shortStraightSpeed (v : Speeds) (d : Drive) : Logged Cell Int := do
  if ← d.roadIs 6 .longStraight <&&> d.roadIs 7 .longStraight <&&> d.roadIs 8 .longStraight <&&>
      d.roadIs 9 .longStraight <&&> d.roadIs 10 .longStraight then return toInt16 (v.sZhi - 70)
  else if ← d.roadIs 3 .curve <&&> d.roadIs 4 .curve <&&> d.roadIs 5 .curve then return v.sWan1
  else
    let speed := toInt16 (shortStraightTaper v d.steerErrorAve)
    return if speed < v.sWan1 then v.sWan1 else speed

/-- The speed in a curve before it is stored. -/
def curveTaper (v : Speeds) (steerErrorAve : Int) : Int :=
  v.sWan1 - ((v.sWan1 - v.sWan2) * (steerErrorAve * steerErrorAve)).tdiv (40 * 40)

/-- The speed in a curve, between `s_wan2` and `s_wan1`. -/
def curveSpeed (v : Speeds) (steerErrorAve : Int) : Int :=
  let speed := toInt16 (curveTaper v steerErrorAve)
  let speed := if speed < v.sWan2 then v.sWan2 else speed
  if speed > v.sWan1 then v.sWan1 else speed

def setCurveSpeed (v : Speeds) (d : Drive) : Logged Cell Drive := do
  if ← d.roadIs 9 .longStraight <&&> d.roadIs 10 .longStraight <&&> d.roadIs 11 .longStraight <&&>
      d.roadIs 12 .longStraight <&&> d.roadIs 13 .longStraight then
    return { d with speedSet := toInt16 (v.sWan1 - 30) }
  else
    return { d with
      gHighestSpeed := v.sWan1, gLowestSpeed := v.sWan2
      speedSet := curveSpeed v d.steerErrorAve }

/-- The branches of `velocity_set`. The first two also look at `road_type[1]`, to
sound the beeper where the road changes. -/
def setSpeed (v : Speeds) (f2 : Findline2) (d : Drive) : Logged Cell Drive :=
  if f2.onLoop then do
    let d ← d.record .loop
    Logged.touch (.roadType 1)
    return { d with speedSet := v.sHuan }
  else if f2.shiziflag1 = 1 then do
    let d ← d.record .cross
    Logged.touch (.roadType 1)
    return { d with speedSet := v.sCross }
  else if d.longStraightFlag = 1 then do
    let d ← d.record .longStraight
    return { d with speedSet := v.sMax }
  else if d.shortstraightFlag ≠ 0 then do
    let d ← d.record .shortStraight
    let speedSet ← shortStraightSpeed v d
    return { d with speedSet }
  else if f2.onLoop then do
    -- not reached: the first branch takes every loop
    let d ← d.record .cross
    return { d with speedSet := v.sHuan }
  else do
    let d ← d.record .curve
    setCurveSpeed v d

/-- The two judgements at the head of `velocity_set`. -/
def judgeStraight (s : Lines) (d : Drive) : Drive :=
  let d := { d with longStraightFlag := 0 }
  if s.f2.shiziflag1 = 0 then shortStraightJudge s.f1 (longStraightJudge s d) else d

def velocitySet (v : Speeds) (s : Lines) (d : Drive) : Logged Cell Drive := do
  let d ← setSpeed v s.f2 (judgeStraight s d)
  let (roadType, _) ← shift .roadType 200 d.roadType (fun _ u => u) ()
  return { d with roadType }

/-! ## Stopping -/

/-- `count_black`: the black pixels of rows 118 to 116, columns 130 to 30. -/
def countBlack (img : Image) : Int :=
  (foldDown (ε := Cell) 118 115 0 fun i count =>
    foldDown 130 29 count fun j count => return if img i j = 0 then count + 1 else count).val

def stopCarJudge (img : Image) (d : Drive) : Logged Cell Drive := do
  Logged.touch (.stopCar 0)
  let newest := Function.update d.stopCar 0 (if countBlack img > 150 then 1 else 0)
  let (stopCar, stopCount) ← shift .stopCar 20 newest
    (fun stopped count => if stopped ≠ 0 then count + 1 else count) (0 : Int)
  return { d with stopCar, stopCarFlag := if stopCount ≥ 15 then 1 else 0 }

/-! ## Wheels -/

/-- The fields of `struct wheel` that `wheel_update` uses. -/
structure Wheel where
  rpm : ℚ
  speedToRpm : ℚ
  speedNow : Int → ℚ

/-- `wheel_update` up to the calls of the controller and the motor, with the
measured speed of the encoder. -/
def wheelUpdate (rpm : ℚ) (w : Wheel) : Logged Cell Wheel := do
  Logged.touch (.speedNow 0)
  let newest := Function.update w.speedNow 0 (rpm / w.speedToRpm)
  let (speedNow, _) ← shift .speedNow 5 newest (fun _ u => u) ()
  return { w with rpm, speedNow }

/-! ## The main loop -/

/-- What an iteration of the main loop takes from outside. -/
structure DriveFrame where
  image : Image
  loseCnt : Int
  speeds : Speeds

/-- The globals of `findLines.c` and `distinguish.c`. -/
structure Car where
  lines : Lines
  drive : Drive

def Car.init : Car := ⟨Lines.init, Drive.init⟩

/-- `findline1` and `findline2` see `shortstraight_flag` as the last frame left it. -/
def nextLines (fr : DriveFrame) (c : Car) : Lines :=
  nextFrame ⟨fr.image, fr.loseCnt, c.drive.shortstraightFlag⟩ c.lines

/-- The iteration up to `velocity_set`. -/
def classified (fr : DriveFrame) (c : Car) : Drive :=
  (velocitySet fr.speeds (nextLines fr c) (computeError (nextLines fr c) c.drive).val).val

/-- An iteration of the main loop, up to the commands to motors and servo. -/
def nextCar (fr : DriveFrame) (c : Car) : Car :=
  let d := (stopCarJudge fr.image (classified fr c)).val
  ⟨nextLines fr c, if d.stopCarFlag ≠ 0 then { d with speedSet := 0 } else d⟩

/-- The globals after a run of the main loop. -/
def afterDrive (frames : List DriveFrame) : Car := run nextCar Car.init frames

end SmartCar
