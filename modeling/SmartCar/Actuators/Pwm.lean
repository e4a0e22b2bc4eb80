import SmartCar.Imperative.Loop
import SmartCar.Imperative.Run
import SmartCar.Numeric.Mean

/-!
# Motors and servos

`motor.c` and `servo.c`: the duties written to the PWM channels. A motor hangs
between two channels, one for each direction, and must not be driven by both at
once; the log of a call is the sequence of its writes. The `float` arithmetic of
the servos is taken as exact.
-/

namespace SmartCar

open Imperative Logged Numeric

/-! ## Channels -/

/-- The members of `PWMCH_enum` that the motors and servos use. -/
inductive PwmChannel where
  | pwm1Module3ChaD0
  | pwm1Module3ChbD1
  | pwm2Module3ChaD2
  | pwm2Module3ChbD3
  | pwm4Module2ChaC30
  | pwm1Module0ChaD12
  | pwm1Module0ChbD13
deriving DecidableEq

/-- A duty written to a channel. -/
structure PwmWrite where
  channel : PwmChannel
  duty : Nat
deriving DecidableEq

/-- The conversion of an `int` argument to the parameter `uint32 duty`. -/
def toUint32 (x : Int) : Nat := (x % 2 ^ 32).toNat

def pwmDuty (channel : PwmChannel) (duty : Int) : Logged PwmWrite Unit :=
  Logged.touch ⟨channel, toUint32 duty⟩

/-- `pwm_init` also sets the duty; the frequency plays no part here. -/
def pwmInit (channel : PwmChannel) (duty : Int) : Logged PwmWrite Unit :=
  Logged.touch ⟨channel, toUint32 duty⟩

def limitInt (x y : Int) : Int :=
  if x > y then y
  else if x < -y then -y
  else x

/-! ## Motors -/

structure Motor where
  index : Int

def motorCreate (index : Int) : Logged PwmWrite Motor := do
  if index = 1 then
    pwmInit .pwm1Module3ChaD0 0
    pwmInit .pwm1Module3ChbD1 0
    return ⟨index⟩
  else if index = 2 then
    pwmInit .pwm2Module3ChaD2 0
    pwmInit .pwm2Module3ChbD3 0
    return ⟨index⟩
  else return ⟨index⟩

/-- One case of `motor_run`: `cha` drives forward, `chb` backward. -/
def runBridge (cha chb : PwmChannel) (thousands : Int) : Logged PwmWrite Unit := do
  if thousands ≥ 0 then
    pwmDuty cha thousands
    pwmDuty chb 0
  else
    pwmDuty cha 0
    pwmDuty chb (-thousands)

def motorRun (mot : Motor) (thousands : Int) : Logged PwmWrite Unit :=
  let thousands := 10 * limitInt thousands 1000
  if mot.index = 1 then runBridge .pwm1Module3ChaD0 .pwm1Module3ChbD1 thousands
  else if mot.index = 2 then runBridge .pwm2Module3ChaD2 .pwm2Module3ChbD3 thousands
  else pure ()

/-! ## Servos -/

/-- The body of the three `servo_set_angle` functions: `angle` is from -1000, left,
to 1000, right. -/
def servoSetAngle (pin : PwmChannel) (midPos halfOne angle : Int) : Logged PwmWrite Unit :=
  let tmp : ℚ := limitInt angle 1000
  pwmDuty pin (midPos + truncate (tmp / 1000 * halfOne))

def servo1SetAngle : Int → Logged PwmWrite Unit := servoSetAngle .pwm4Module2ChaC30 770 80

def servo2SetAngle : Int → Logged PwmWrite Unit := servoSetAngle .pwm1Module0ChaD12 770 80

def servo3SetAngle : Int → Logged PwmWrite Unit := servoSetAngle .pwm1Module0ChbD13 770 80

/-! ## Limits -/

section Limits

theorem limitInt_mem {y : Int} (hy : 0 ≤ y) (x : Int) : -y ≤ limitInt x y ∧ limitInt x y ≤ y := by
  unfold limitInt
  split
  · omega
  · split <;> omega

theorem limitInt_neg {y : Int} (hy : 0 ≤ y) (x : Int) : limitInt (-x) y = -limitInt x y := by
  unfold limitInt
  grind

theorem limitInt_mono {y : Int} (hy : 0 ≤ y) : Monotone fun x => limitInt x y := by
  intro a b hab
  simp only [limitInt]
  grind

theorem limitInt_pos_iff {y : Int} (hy : 0 < y) (x : Int) : 0 < limitInt x y ↔ 0 < x := by
  unfold limitInt
  grind

theorem toUint32_of_mem {x : Int} (hlo : 0 ≤ x) (hhi : x < 2 ^ 32) : (toUint32 x : Int) = x := by
  rw [toUint32, Int.emod_eq_of_lt hlo hhi]
  omega

variable {cha chb : PwmChannel} {t : Int}

theorem runBridge_le (hlo : -10000 ≤ t) (hhi : t ≤ 10000) :
    All (fun w : PwmWrite => w.duty ≤ 10000) (runBridge cha chb t) := by
  have hzero := toUint32_of_mem (x := 0) le_rfl (by norm_num)
  unfold runBridge
  split
  next hforward =>
    have hduty := toUint32_of_mem hforward (by omega)
    simp only [pwmDuty, all_bind, all_touch]
    omega
  next hback =>
    have hduty := toUint32_of_mem (x := -t) (by omega) (by omega)
    simp only [pwmDuty, all_bind, all_touch]
    omega

/-- Every duty written by `motor_run` is at most 10000. -/
theorem motorRun_le (mot : Motor) (thousands : Int) :
    All (fun w : PwmWrite => w.duty ≤ 10000) (motorRun mot thousands) := by
  have hmem := limitInt_mem (y := 1000) (by norm_num) thousands
  unfold motorRun
  split
  · exact runBridge_le (by omega) (by omega)
  · split
    · exact runBridge_le (by omega) (by omega)
    · exact all_pure ()

/-- A servo writes one duty, between the two stops, that grows with the angle and is
symmetric around the middle position. -/
structure ServoLaw (setAngle : Int → Logged PwmWrite Unit) (duty : Int → Nat) : Prop where
  writes : ∀ a, (setAngle a).log.map PwmWrite.duty = [duty a]
  range : ∀ a, 690 ≤ duty a ∧ duty a ≤ 850
  monotone : Monotone duty
  symmetric : ∀ a, duty a + duty (-a) = 2 * 770

/-- The duty that the servos are set to. -/
def servoDuty (angle : Int) : Nat := toUint32 (770 + truncate ((limitInt angle 1000 : ℚ) / 1000 * 80))

theorem servoOffset_mem (a : Int) :
    -80 ≤ truncate ((limitInt a 1000 : ℚ) / 1000 * 80) ∧
      truncate ((limitInt a 1000 : ℚ) / 1000 * 80) ≤ 80 := by
  obtain ⟨hlo, hhi⟩ := limitInt_mem (y := 1000) (by norm_num) a
  have hlo' : (-1000 : ℚ) ≤ (limitInt a 1000 : ℚ) := by exact_mod_cast hlo
  have hhi' : (limitInt a 1000 : ℚ) ≤ 1000 := by exact_mod_cast hhi
  constructor
  · apply le_truncate
    push_cast
    linarith
  · apply truncate_le
    push_cast
    linarith

theorem servoDuty_eq (a : Int) :
    (servoDuty a : Int) = 770 + truncate ((limitInt a 1000 : ℚ) / 1000 * 80) := by
  have hmem := servoOffset_mem a
  exact toUint32_of_mem (by omega) (by omega)

theorem servoSetAngle_law (pin : PwmChannel) : ServoLaw (servoSetAngle pin 770 80) servoDuty where
  writes := by
    intro a
    simp [servoSetAngle, pwmDuty, Logged.touch, servoDuty]
  range := by
    intro a
    have heq := servoDuty_eq a
    have hmem := servoOffset_mem a
    omega
  monotone := by
    intro a b hab
    have hlimit : (limitInt a 1000 : ℚ) ≤ limitInt b 1000 := by
      exact_mod_cast limitInt_mono (by norm_num) hab
    have hoffset := truncate_mono
      (show (limitInt a 1000 : ℚ) / 1000 * 80 ≤ (limitInt b 1000 : ℚ) / 1000 * 80 by linarith)
    have hleft := servoDuty_eq a
    have hright := servoDuty_eq b
    omega
  symmetric := by
    intro a
    have hneg : ((limitInt (-a) 1000 : Int) : ℚ) / 1000 * 80 =
        -((limitInt a 1000 : ℚ) / 1000 * 80) := by
      rw [limitInt_neg (by norm_num)]
      push_cast
      ring
    have hleft := servoDuty_eq a
    have hright := servoDuty_eq (-a)
    rw [hneg, truncate_neg] at hright
    omega

end Limits

end SmartCar
