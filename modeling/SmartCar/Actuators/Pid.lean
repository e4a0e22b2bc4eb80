import SmartCar.Actuators.Pwm

/-!
# The PID controllers

`controller.c` with its two implementations, `inc_pid_controller.c` and
`pos_pid_controller.c`. The `float` arithmetic is taken as exact. `rt_malloc`
hands out memory as it finds it, and the `create` functions set neither `target`
nor `output`: both are parameters of a new controller.
-/

namespace SmartCar

open Imperative Logged Numeric

/-! ## Definitions -/

/-- The fields of `struct controller` that its users read. -/
structure Controller where
  target : ℚ
  output : ℚ

/-- `struct inc_pid_controller` without its clock. -/
structure IncPid where
  controller : Controller
  kp : ℚ
  ki : ℚ
  kd : ℚ
  minimum : ℚ
  maximum : ℚ
  pError : ℚ
  iError : ℚ
  dError : ℚ
  error : ℚ
  errorL : ℚ
  errorLl : ℚ
  lastOut : ℚ

/-- `struct pos_pid_controller` without its clock. -/
structure PosPid where
  controller : Controller
  kp : ℚ
  ki : ℚ
  kd : ℚ
  minimum : ℚ
  maximum : ℚ
  antiWindupValue : ℚ
  pError : ℚ
  iError : ℚ
  dError : ℚ
  integral : ℚ
  error : ℚ
  errorL : ℚ
  lastOut : ℚ

/-- The two limits at the end of both updates. -/
def limitOut (maximum minimum out : ℚ) : ℚ :=
  let out := if out > maximum then maximum else out
  if out < minimum then minimum else out

/-- The limit of `integral` to either side of 0. -/
def limitIntegral (antiWindupValue integral : ℚ) : ℚ :=
  if integral > antiWindupValue then antiWindupValue
  else if integral < -antiWindupValue then -antiWindupValue
  else integral

namespace IncPid

def setParam (pid : IncPid) (kp ki kd : ℚ) : IncPid := { pid with kp, ki, kd }

/-- `last_out` before it is limited. -/
def nextOut (pid : IncPid) (currentPoint : ℚ) : ℚ :=
  let error := pid.controller.target - currentPoint
  let pError := pid.kp * (error - pid.errorL)
  let iError := pid.ki * error
  let dError := pid.kd * (error - 2 * pid.errorL + pid.errorLl)
  pid.lastOut + (pError + iError + dError)

def update (pid : IncPid) (currentPoint : ℚ) : IncPid :=
  let error := pid.controller.target - currentPoint
  let lastOut := limitOut pid.maximum pid.minimum (pid.nextOut currentPoint)
  { pid with
    error
    pError := pid.kp * (error - pid.errorL)
    iError := pid.ki * error
    dError := pid.kd * (error - 2 * pid.errorL + pid.errorLl)
    lastOut
    errorLl := pid.errorL
    errorL := error
    controller := { pid.controller with output := lastOut } }

def create (fresh : Controller) (kp ki kd maximum minimum : ℚ) : IncPid where
  controller := fresh
  kp := kp
  ki := ki
  kd := kd
  minimum := minimum
  maximum := maximum
  pError := 0
  iError := 0
  dError := 0
  error := 0
  errorL := 0
  errorLl := 0
  lastOut := 0

end IncPid

namespace PosPid

def setParam (pid : PosPid) (kp ki kd : ℚ) : PosPid := { pid with kp, ki, kd }

/-- `integral` before it is limited. -/
def nextIntegral (pid : PosPid) (currentPoint : ℚ) : ℚ :=
  pid.integral + pid.ki * (pid.controller.target - currentPoint)

/-- `last_out` before it is limited. -/
def nextOut (pid : PosPid) (currentPoint : ℚ) : ℚ :=
  let error := pid.controller.target - currentPoint
  let pError := pid.kp * error
  let iError := limitIntegral pid.antiWindupValue (pid.nextIntegral currentPoint)
  let dError := pid.kd * (error - pid.errorL)
  pError + iError + dError

def update (pid : PosPid) (currentPoint : ℚ) : PosPid :=
  let error := pid.controller.target - currentPoint
  let integral := limitIntegral pid.antiWindupValue (pid.nextIntegral currentPoint)
  let lastOut := limitOut pid.maximum pid.minimum (pid.nextOut currentPoint)
  { pid with
    error
    integral
    pError := pid.kp * error
    iError := integral
    dError := pid.kd * (error - pid.errorL)
    lastOut
    errorL := error
    controller := { pid.controller with output := lastOut } }

/-- `ANTI_WIND_RADIO` -/
def antiWindRadio : ℚ := 1 / 2

def create (fresh : Controller) (kp ki kd maximum minimum : ℚ) : Option PosPid :=
  if maximum < minimum then none
  else some {
    controller := fresh
    kp, ki, kd, minimum, maximum
    antiWindupValue := maximum * antiWindRadio
    pError := 0
    iError := 0
    dError := 0
    integral := 0
    error := 0
    errorL := 0
    lastOut := 0 }

end PosPid

/-- What a `controller_t` points to; the alternative stands for the two function
pointers. -/
inductive AnyPid where
  | inc (pid : IncPid)
  | pos (pid : PosPid)

namespace AnyPid

def controller : AnyPid → Controller
  | inc pid => pid.controller
  | pos pid => pid.controller

def controllerUpdate (currentPoint : ℚ) : AnyPid → AnyPid
  | inc pid => inc (pid.update currentPoint)
  | pos pid => pos (pid.update currentPoint)

def controllerSetTarget (target : ℚ) : AnyPid → AnyPid
  | inc pid => inc { pid with controller := { pid.controller with target } }
  | pos pid => pos { pid with controller := { pid.controller with target } }

def controllerSetParam (kp ki kd : ℚ) : AnyPid → AnyPid
  | inc pid => inc (pid.setParam kp ki kd)
  | pos pid => pos (pid.setParam kp ki kd)

end AnyPid

/-- A call of one of the functions of `controller.h`. -/
inductive ControllerCall where
  | setParam (kp ki kd : ℚ)
  | setTarget (target : ℚ)
  | update (currentPoint : ℚ)

def ControllerCall.step : ControllerCall → AnyPid → AnyPid
  | setParam kp ki kd => AnyPid.controllerSetParam kp ki kd
  | setTarget target => AnyPid.controllerSetTarget target
  | update currentPoint => AnyPid.controllerUpdate currentPoint

/-! ## Ranges -/

section Ranges

theorem limitOut_mem {maximum minimum : ℚ} (h : minimum ≤ maximum) (out : ℚ) :
    minimum ≤ limitOut maximum minimum out ∧ limitOut maximum minimum out ≤ maximum := by
  unfold limitOut
  extract_lets high
  have hhigh : high ≤ maximum := by
    change (if out > maximum then maximum else out) ≤ maximum
    split
    next => exact le_rfl
    next hle => exact not_lt.mp hle
  split
  next => exact ⟨le_rfl, h⟩
  next hlow => exact ⟨not_lt.mp hlow, hhigh⟩

theorem limitIntegral_mem {antiWindupValue : ℚ} (h : 0 ≤ antiWindupValue) (integral : ℚ) :
    -antiWindupValue ≤ limitIntegral antiWindupValue integral ∧
      limitIntegral antiWindupValue integral ≤ antiWindupValue := by
  unfold limitIntegral
  split
  next => exact ⟨by linarith, le_rfl⟩
  next hhigh =>
    split
    next => exact ⟨le_rfl, by linarith⟩
    next hlow => exact ⟨not_lt.mp hlow, not_lt.mp hhigh⟩

/-- The limits that `main` and `chassis_thread` create their controllers with. -/
def Limited : AnyPid → Prop
  | .inc pid => pid.maximum = 1000 ∧ pid.minimum = -1000
  | .pos pid => pid.maximum = 1000 ∧ pid.minimum = -1000 ∧ pid.antiWindupValue = 500

/-- The output, and the integral where there is one, are in range. -/
def InRange : AnyPid → Prop
  | .inc pid => -1000 ≤ pid.controller.output ∧ pid.controller.output ≤ 1000
  | .pos pid => (-1000 ≤ pid.controller.output ∧ pid.controller.output ≤ 1000) ∧
      -500 ≤ pid.integral ∧ pid.integral ≤ 500

/-- No call moves the limits. -/
theorem ControllerCall.step_limited (call : ControllerCall) (c : AnyPid) (h : Limited c) :
    Limited (call.step c) := by
  cases call with
  | setParam kp ki kd => cases c <;> exact h
  | setTarget target => cases c <;> exact h
  | update currentPoint => cases c <;> exact h

theorem controllerUpdate_inRange {c : AnyPid} (h : Limited c) (currentPoint : ℚ) :
    InRange (c.controllerUpdate currentPoint) := by
  cases c with
  | inc pid =>
      obtain ⟨hmax, hmin⟩ := h
      have hout := limitOut_mem (show pid.minimum ≤ pid.maximum by linarith)
        (pid.nextOut currentPoint)
      rw [hmax, hmin] at hout
      change -1000 ≤ limitOut pid.maximum pid.minimum _ ∧ limitOut pid.maximum pid.minimum _ ≤ 1000
      rw [hmax, hmin]
      exact hout
  | pos pid =>
      obtain ⟨hmax, hmin, hanti⟩ := h
      have hout := limitOut_mem (show pid.minimum ≤ pid.maximum by linarith)
        (pid.nextOut currentPoint)
      have hintegral := limitIntegral_mem (show 0 ≤ pid.antiWindupValue by linarith)
        (pid.nextIntegral currentPoint)
      rw [hmax, hmin] at hout
      rw [hanti] at hintegral
      change (-1000 ≤ limitOut pid.maximum pid.minimum _ ∧
        limitOut pid.maximum pid.minimum _ ≤ 1000) ∧
          -500 ≤ limitIntegral pid.antiWindupValue _ ∧ limitIntegral pid.antiWindupValue _ ≤ 500
      rw [hmax, hmin, hanti]
      exact ⟨hout, hintegral⟩

/-- In a run of calls on a controller with these limits every update leaves it in
range. -/
theorem run_inRange {c : AnyPid} (h : Limited c) (calls : List ControllerCall) (currentPoint : ℚ) :
    InRange (run ControllerCall.step c (calls ++ [.update currentPoint])) := by
  rw [run_concat]
  exact controllerUpdate_inRange
    (run_invariant Limited ControllerCall.step_limited h calls) currentPoint

/-- A controller as `chassis_thread` creates it for a wheel. -/
def wheelPid (fresh : Controller) (kp ki kd : ℚ) : AnyPid :=
  .inc (IncPid.create fresh kp ki kd 1000 (-1000))

/-- The controller that `main` creates for the steering. -/
def rhoErrPid (fresh : Controller) (kp ki kd : ℚ) : Option AnyPid :=
  (PosPid.create fresh kp ki kd 1000 (-1000)).map .pos

theorem wheelPid_limited (fresh : Controller) (kp ki kd : ℚ) : Limited (wheelPid fresh kp ki kd) :=
  ⟨rfl, rfl⟩

theorem rhoErrPid_limited (fresh : Controller) (kp ki kd : ℚ) :
    ∃ c, rhoErrPid fresh kp ki kd = some c ∧ Limited c := by
  have hlimits : ¬ (1000 : ℚ) < -1000 := by norm_num
  rw [rhoErrPid, PosPid.create, if_neg hlimits]
  refine ⟨_, rfl, rfl, rfl, ?_⟩
  norm_num [PosPid.antiWindRadio]

/-- Whatever gains, targets and measurements a run feeds to the controllers, and
whatever a motor or a servo is told, the commands stay in range. -/
structure CommandsInRange : Prop where
  wheel : ∀ fresh kp ki kd calls currentPoint,
    InRange (run ControllerCall.step (wheelPid fresh kp ki kd)
      (calls ++ [.update currentPoint]))
  steer : ∀ fresh kp ki kd calls currentPoint, ∃ c, rhoErrPid fresh kp ki kd = some c ∧
    InRange (run ControllerCall.step c (calls ++ [.update currentPoint]))
  motor : ∀ mot thousands, All (fun w : PwmWrite => w.duty ≤ 10000) (motorRun mot thousands)
  servo1 : ServoLaw servo1SetAngle servoDuty
  servo2 : ServoLaw servo2SetAngle servoDuty
  servo3 : ServoLaw servo3SetAngle servoDuty

theorem commands_inRange : CommandsInRange where
  wheel := fun fresh kp ki kd => run_inRange (wheelPid_limited fresh kp ki kd)
  steer := by
    intro fresh kp ki kd calls currentPoint
    obtain ⟨c, hcreate, hlimited⟩ := rhoErrPid_limited fresh kp ki kd
    exact ⟨c, hcreate, run_inRange hlimited calls currentPoint⟩
  motor := motorRun_le
  servo1 := servoSetAngle_law _
  servo2 := servoSetAngle_law _
  servo3 := servoSetAngle_law _

end Ranges

end SmartCar
