import SmartCar.Actuators.Bridge
import SmartCar.Actuators.Pid
import SmartCar.Distinguish.Functions

/-!
# The chassis thread and the stop command

`chassisThread.c`, from the moment the two wheels exist. KEY1 and the shell
command `set_chassis_enable_cmd` write `is_chassis_running`, and nothing reads
it: whether the motors are driven is decided by switch 2 alone. An iteration
that starts with the chassis stopped therefore drives them, unless switch 2 is
off or both controllers happen to be near 0.
-/

namespace SmartCar

open Imperative Logged Numeric

/-! ## Wheels -/

/-- The controller of a wheel, an incremental one with the limits that
`chassis_thread` gives it. -/
structure WheelPid where
  pid : IncPid
  limited : Limited (.inc pid)

namespace WheelPid

def create (fresh : Controller) (kp ki kd : ℚ) : WheelPid :=
  ⟨IncPid.create fresh kp ki kd 1000 (-1000), wheelPid_limited fresh kp ki kd⟩

def update (p : WheelPid) (rpm : ℚ) : WheelPid := ⟨p.pid.update rpm, p.limited⟩

def setTarget (p : WheelPid) (target : ℚ) : WheelPid :=
  ⟨{ p.pid with controller := { p.pid.controller with target } }, p.limited⟩

end WheelPid

/-- What `left_wheel` and `right_wheel` point to. -/
structure DrivenWheel (b : Bridge) where
  wheel : Wheel
  wController : WheelPid

namespace DrivenWheel

variable {b : Bridge}

def setSpeed (whl : DrivenWheel b) (speed : ℚ) : DrivenWheel b :=
  { whl with wController := whl.wController.setTarget (speed * whl.wheel.speedToRpm) }

/-- `wheel_update` with the measured speed of the encoder. -/
def update (whl : DrivenWheel b) (rpm : ℚ) : Logged PwmWrite (DrivenWheel b) := do
  let wController := whl.wController.update rpm
  motorRun b.motor (truncate wController.pid.controller.output)
  return { wheel := (wheelUpdate rpm whl.wheel).val, wController }

end DrivenWheel

/-! ## Steps -/

/-- The globals of `chassisThread.c`. -/
structure Chassis where
  leftWheel : DrivenWheel .left
  rightWheel : DrivenWheel .right
  isChassisRunning : Bool
  wheelDiffP : ℚ
  speedNow : Int → ℚ

/-- The loop over `speed_now`, with the mean speed of the two wheels. -/
def Chassis.noteSpeed (c : Chassis) : Chassis :=
  { c with speedNow := fun i => if 0 ≤ i ∧ i < 5 then
      (c.leftWheel.wheel.speedNow i + c.rightWheel.wheel.speedNow i) / 2 else c.speedNow i }

/-- `SWITCH_ON`, the level of a switch that is closed. -/
def switchOn : Int := 0

/-- The branches of `chassis_thread`. -/
def driveWheels (switch2 : Int) (leftRpm rightRpm : ℚ) (c : Chassis) : Logged PwmWrite Chassis :=
  if switchOn = switch2 then do
    let leftWheel ← c.leftWheel.update leftRpm
    let rightWheel ← c.rightWheel.update rightRpm
    return { c with leftWheel, rightWheel }
  else do
    motorRun Bridge.left.motor 0
    motorRun Bridge.right.motor 0
    return c

/-- An iteration of `chassis_thread` with the level of switch 2 and the measured
speeds. -/
def chassisIteration (switch2 : Int) (leftRpm rightRpm : ℚ) (c : Chassis) :
    Logged PwmWrite Chassis :=
  Chassis.noteSpeed <$> driveWheels switch2 leftRpm rightRpm c

def setVelocity (velocity : ℚ) (steerError : Int) (c : Chassis) : Chassis :=
  let computed : ℚ := if (steerError.natAbs : Int) > 10 then c.wheelDiffP * steerError * velocity
    else 0
  { c with
    leftWheel := c.leftWheel.setSpeed (velocity + computed)
    rightWheel := c.rightWheel.setSpeed (velocity - computed) }

def str2bool (str : String) : Bool := if str = "0" then false else true

/-- `set_chassis_enable_cmd`; the name of the command counts among its arguments. -/
def setChassisEnableCmd : List String → Chassis → Chassis
  | _ :: arg :: _, c => { c with isChassisRunning := str2bool arg }
  | _, c => c

/-- The callback of a click on KEY1. -/
def key1Click (c : Chassis) : Chassis := { c with isChassisRunning := !c.isChassisRunning }

/-- A step of one of the threads. A frame of the main loop sets the velocity if
switch 4 is on. -/
inductive ChassisStep where
  | iteration (switch2 : Int) (leftRpm rightRpm : ℚ)
  | frame (switch4 : Int) (velocity : ℚ) (steerError : Int)
  | click
  | enableCmd (argv : List String)

namespace ChassisStep

def exec : ChassisStep → Chassis → Logged PwmWrite Chassis
  | iteration switch2 leftRpm rightRpm, c => chassisIteration switch2 leftRpm rightRpm c
  | frame switch4 velocity steerError, c =>
      return if switchOn = switch4 then setVelocity velocity steerError c else c
  | click, c => return key1Click c
  | enableCmd argv, c => return setChassisEnableCmd argv c

def next (e : ChassisStep) (c : Chassis) : Chassis := (e.exec c).val

/-- The writes of a step that commands 0 to both motors. -/
def stopWrites : List PwmWrite := (motorRun Bridge.left.motor 0).log ++
  (motorRun Bridge.right.motor 0).log

/-- The step commands 0 to both motors, if it is an iteration of `chassis_thread`
and the chassis is stopped. -/
def ObeysStop (e : ChassisStep) (c : Chassis) : Prop :=
  match e with
  | iteration .. => c.isChassisRunning = false → (e.exec c).log = stopWrites
  | _ => True

end ChassisStep

/-! ## When the motors stand -/

section Stand

/-- The new sum of the controller is less than one unit from 0: the old one together
with what the gains make of the distance to the target. The sum is exact, where in
float `0.04f * 25` is rounded up to 1. -/
def WheelPid.NearZero (p : WheelPid) (rpm : ℚ) : Prop :=
  let error := p.pid.controller.target - rpm
  let sum := p.pid.lastOut + (p.pid.kp * (error - p.pid.errorL) + p.pid.ki * error +
    p.pid.kd * (error - 2 * p.pid.errorL + p.pid.errorLl))
  sum < 1 ∧ -1 < sum

/-- An iteration finds switch 2 off or both controllers near 0. -/
def ChassisStep.Rests (e : ChassisStep) (c : Chassis) : Prop :=
  match e with
  | iteration switch2 leftRpm rightRpm => switch2 ≠ switchOn ∨
      c.leftWheel.wController.NearZero leftRpm ∧ c.rightWheel.wController.NearZero rightRpm
  | _ => True

theorem limitOut_near {out : ℚ} : (-1 < limitOut 1000 (-1000) out ∧ limitOut 1000 (-1000) out < 1) ↔
    -1 < out ∧ out < 1 := by
  unfold limitOut
  extract_lets high
  have hhigh : high = if out > 1000 then 1000 else out := rfl
  split at hhigh
  next hlarge =>
    rw [hhigh]
    constructor
    · rintro ⟨-, hlt⟩
      norm_num at hlt
    · rintro ⟨-, hlt⟩
      linarith
  next hle =>
    rw [hhigh]
    split
    next hsmall =>
      constructor
      · rintro ⟨hlt, -⟩
        norm_num at hlt
      · rintro ⟨hlt, -⟩
        linarith
    next => exact Iff.rfl

theorem WheelPid.output_eq_zero_iff (p : WheelPid) (rpm : ℚ) :
    truncate (p.update rpm).pid.controller.output = 0 ↔ p.NearZero rpm := by
  obtain ⟨hmax, hmin⟩ := p.limited
  have hout : (p.update rpm).pid.controller.output =
      limitOut p.pid.maximum p.pid.minimum (p.pid.nextOut rpm) := rfl
  rw [truncate_eq_zero_iff, hout, hmax, hmin, limitOut_near, and_comm]
  rfl

theorem motorRun_stop_iff (b : Bridge) (t : Int) :
    (motorRun b.motor t).log = (motorRun b.motor 0).log ↔ t = 0 := by
  constructor
  · intro hlog
    obtain ⟨stop, hstop, hwrites⟩ := writes_forward (c := ⟨b, 0⟩) le_rfl
    change (motorRun b.motor 0).log = _ at hwrites
    rw [hwrites] at hlog
    rcases Int.lt_or_le t 0 with hback | hforward
    · obtain ⟨duty, hduty, hwritten⟩ := writes_backward (c := ⟨b, t⟩) hback
      change (motorRun b.motor t).log = _ at hwritten
      rw [hwritten] at hlog
      simp [hduty] at hlog
    · obtain ⟨duty, hduty, hwritten⟩ := writes_forward (c := ⟨b, t⟩) hforward
      change (motorRun b.motor t).log = _ at hwritten
      rw [hwritten] at hlog
      simp only [List.cons.injEq, PwmWrite.mk.injEq, and_true, true_and] at hlog
      exact hduty.mp (hlog.trans (hstop.mpr rfl))
  · rintro rfl
    rfl

theorem motorRun_length (b : Bridge) (t : Int) : (motorRun b.motor t).log.length = 2 := by
  rcases Int.lt_or_le t 0 with hback | hforward
  · obtain ⟨duty, -, hwritten⟩ := writes_backward (c := ⟨b, t⟩) hback
    exact congrArg List.length hwritten
  · obtain ⟨duty, -, hwritten⟩ := writes_forward (c := ⟨b, t⟩) hforward
    exact congrArg List.length hwritten

variable {switch2 : Int} {leftRpm rightRpm : ℚ} {c : Chassis}

theorem chassisIteration_off (h : switch2 ≠ switchOn) :
    (chassisIteration switch2 leftRpm rightRpm c).log = ChassisStep.stopWrites := by
  rw [chassisIteration, driveWheels, if_neg (Ne.symm h)]
  rfl

theorem chassisIteration_on : (chassisIteration switchOn leftRpm rightRpm c).log =
    (motorRun Bridge.left.motor
        (truncate (c.leftWheel.wController.update leftRpm).pid.controller.output)).log ++
      (motorRun Bridge.right.motor
        (truncate (c.rightWheel.wController.update rightRpm).pid.controller.output)).log := by
  rw [chassisIteration, driveWheels, if_pos rfl]
  simp [bind, pure, Functor.map, DrivenWheel.update]

/-- An iteration commands 0 to both motors exactly if it finds switch 2 off or both
controllers near 0, whether the chassis is running or not. -/
theorem chassisIteration_stops_iff :
    (chassisIteration switch2 leftRpm rightRpm c).log = ChassisStep.stopWrites ↔
      (ChassisStep.iteration switch2 leftRpm rightRpm).Rests c := by
  by_cases hswitch : switch2 = switchOn
  · subst hswitch
    rw [chassisIteration_on]
    simp only [ChassisStep.Rests, ne_eq, not_true_eq_false, false_or]
    rw [← WheelPid.output_eq_zero_iff, ← WheelPid.output_eq_zero_iff,
      ← motorRun_stop_iff .left, ← motorRun_stop_iff .right]
    constructor
    · intro hlog
      exact List.append_inj hlog ((motorRun_length _ _).trans (motorRun_length _ _).symm)
    · rintro ⟨hleft, hright⟩
      rw [hleft, hright]
      rfl
  · exact iff_of_true (chassisIteration_off hswitch) (Or.inl hswitch)

theorem obeysStop_iff (e : ChassisStep) (c : Chassis) :
    e.ObeysStop c ↔ (c.isChassisRunning = false → e.Rests c) := by
  cases e with
  | iteration switch2 leftRpm rightRpm =>
      exact imp_congr_right fun _ => chassisIteration_stops_iff
  | frame => exact iff_of_true trivial fun _ => trivial
  | click => exact iff_of_true trivial fun _ => trivial
  | enableCmd => exact iff_of_true trivial fun _ => trivial

end Stand

/-! ## Runs -/

section Runs

/-- Every iteration of the run that starts with the chassis stopped commands 0 to
both motors. -/
def StopObeyed (c : Chassis) (steps : List ChassisStep) : Prop :=
  Meets ChassisStep.ObeysStop ChassisStep.next c steps

/-- In any order of the steps the stop command is obeyed exactly as long as the
iterations with the chassis stopped find switch 2 off or both controllers near 0, in
exact arithmetic. -/
theorem stopObeyed_iff (c : Chassis) (steps : List ChassisStep) : StopObeyed c steps ↔
    Meets (fun e c => c.isChassisRunning = false → e.Rests c) ChassisStep.next c steps := by
  induction steps generalizing c with
  | nil => exact Iff.rfl
  | cons e steps ih => exact and_congr (obeysStop_iff e c) (ih (e.next c))

/-- `wheel_create` with `WHEEL_RADIUS`, on zeroed memory. -/
def newWheel (b : Bridge) : DrivenWheel b where
  wheel := ⟨0, 60 / (100 * (0.066 / 2) * 2 * 3.1415926), fun _ => 0⟩
  wController := WheelPid.create ⟨0, 0⟩ 0.4 0.1 0

/-- The globals once the wheels have been created. -/
def Chassis.init : Chassis := ⟨newWheel .left, newWheel .right, true, 0.2, fun _ => 0⟩

/-- The car is told to drive at 200 cm/s, and then to stop. -/
def toldToStop : List ChassisStep :=
  [.frame switchOn 200 0, .enableCmd ["set_chassis_enable_cmd", "0"], .iteration switchOn 0 0]

theorem toldToStop_not_obeyed : ¬ ∀ c steps, StopObeyed c steps := by
  intro hclaim
  obtain ⟨-, -, hobeyed, -⟩ := hclaim Chassis.init toldToStop
  have hnear := (obeysStop_iff _ _).mp hobeyed rfl
  norm_num [ChassisStep.Rests, ChassisStep.next, ChassisStep.exec, switchOn, setVelocity,
    setChassisEnableCmd, DrivenWheel.setSpeed, WheelPid.setTarget, WheelPid.NearZero,
    WheelPid.create, IncPid.create, Chassis.init, newWheel] at hnear

end Runs

end SmartCar
