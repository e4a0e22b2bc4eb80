import SmartCar.Imperative.Trace

/-!
# Blinking

`easyblink.c`: a daemon thread blinks the LEDs. Calls from other threads change the
record of an LED and wake the daemon, which then corrects the times of the other
LEDs. Here a visit of one LED is one step of the daemon, in the `for` loop and in the
loop of `correct_or_get_min_ticks`; `Visits` goes through its statements. The tick and
the times of the records do not wrap around.
-/

namespace SmartCar

open Imperative Logged

/-! ## Records -/

/-- `PIN_LOW` and `PIN_HIGH` -/
inductive PinLevel where
  | low
  | high
deriving DecidableEq

/-- `PKG_EASYBLINK_MAX_LED_NUMS` -/
def ebLedNums : Nat := 2

/-- `PKG_EASYBLINK_WAIT_MAX_TICK` -/
def ebWaitMaxTick : Nat := 0xFFFFFFFF / 2 - 1

/-- `PKG_EASYBLINK_WAIT_MS_START`, in milliseconds. -/
def ebWaitMsStart : Nat := 500

/-- `PKG_EASYBLINK_WAIT_MS_END`, in milliseconds. -/
def ebWaitMsEnd : Nat := 5000

/-- `RT_SEM_VALUE_MAX` -/
def rtSemValueMax : Nat := 65535

/-- `__EASYBLINK_MS_TO_TICK` -/
def ebMsToTick (ms : Nat) : Nat := ms * 1000 / 1000

/-- `struct easyblink_data`, its flags one by one, with the level of `led_pin`. -/
structure EbLed where
  pin : PinLevel
  activeLevel : PinLevel
  init : Bool
  active : Bool
  correct : Bool
  shouldOn : Bool
  nums : Int
  numsBak : Int
  pulse : Nat
  pulseBak : Nat
  npulse : Nat
  npulseBak : Nat
  ticks : Int

namespace EbLed

def on (led : EbLed) : EbLed := { led with pin := led.activeLevel }

def off (led : EbLed) : EbLed :=
  { led with pin := if led.activeLevel = .high then .low else .high }

def Lit (led : EbLed) : Prop := led.pin = led.activeLevel

instance (led : EbLed) : Decidable led.Lit := inferInstanceAs (Decidable (_ = _))

def blinkDataSet (nums : Int) (pulse period : Nat) (led : EbLed) : EbLed :=
  { led with nums, pulse := ebMsToTick pulse, npulse := ebMsToTick (period - pulse) }

/-- What `led_blink_delay` does before it releases the semaphore. -/
def blinkDelay (delay : Nat) (led : EbLed) : EbLed :=
  { led with ticks := ebMsToTick delay, shouldOn := true, active := true, correct := true }

end EbLed

/-- A write to the pin of an LED. -/
structure EbWrite where
  now : Nat
  led : Nat
  lit : Bool
deriving DecidableEq

/-! ## State -/

/-- Where the daemon is. -/
inductive EbDaemon where
  /-- The thread has not been created. -/
  | absent
  /-- at `while (1)` -/
  | loop
  /-- in the loop of `correct_or_get_min_ticks`, which subtracts `elapsed` if `corr` is set -/
  | least (elapsed : Option Nat) (i : Nat) (tickMin : Int)
  /-- at `while (wait_tick)` -/
  | wait (waitTick : Nat)
  /-- before `rt_sem_take` -/
  | take (waitTick tick : Nat)
  /-- in `rt_sem_take`, until the timer of the thread fires -/
  | blocked (waitTick tick timeout : Nat)
  /-- The semaphore has been taken. -/
  | woken (tick : Nat)
  /-- in the `for` loop -/
  | pass (waitTick i : Nat)
deriving DecidableEq

structure EbState where
  now : Nat
  /-- of `eb_sem` -/
  value : Nat
  leds : Nat → EbLed
  daemon : EbDaemon

def EbState.init : EbState where
  now := 0
  value := 0
  leds := fun _ => ⟨.low, .low, false, false, false, false, 0, 0, 0, 0, 0, 0, 0⟩
  daemon := .absent

namespace EbState

def setLed (i : Nat) (led : EbLed) (s : EbState) : EbState :=
  { s with leds := Function.update s.leds i led }

@[simp] theorem setLed_now (i : Nat) (led : EbLed) (s : EbState) : (s.setLed i led).now = s.now :=
  rfl

@[simp] theorem setLed_value (i : Nat) (led : EbLed) (s : EbState) :
    (s.setLed i led).value = s.value := rfl

@[simp] theorem setLed_daemon (i : Nat) (led : EbLed) (s : EbState) :
    (s.setLed i led).daemon = s.daemon := rfl

/-- `rt_sem_release(eb_sem)` -/
def semRelease (s : EbState) : EbState :=
  match s.daemon with
  | .blocked _ tick _ => { s with daemon := .woken tick }
  | _ => if s.value < rtSemValueMax then { s with value := s.value + 1 } else s

/-- `rt_tick_increase`, which checks the timer of the daemon. -/
def rtTickIncrease (s : EbState) : EbState :=
  let s := { s with now := s.now + 1 }
  match s.daemon with
  | .blocked waitTick _ timeout =>
      if timeout ≤ s.now then { s with daemon := .pass waitTick 0 } else s
  | _ => s

/-! ## Calls -/

/-- The first LED without `PKG_EASYBLINK_INIT`. -/
def freeLed (s : EbState) : Option Nat := (List.range ebLedNums).find? fun i => !(s.leds i).init

/-- `easyblink_init_led`. `rt_pin_mode` sets the pin to 0 when it makes it an output. -/
def initLed (activeLevel : PinLevel) (s : EbState) : Logged EbWrite EbState :=
  match s.freeLed with
  | none => return s
  | some i => do
      let led := { s.leds i with init := true, activeLevel }.off
      touch ⟨s.now, i, decide led.Lit⟩
      let led := { led with pin := .low }
      touch ⟨s.now, i, decide led.Lit⟩
      let s := s.setLed i led
      return if s.daemon = .absent then { s with daemon := .loop, value := 0 } else s

/-- `easyblink`, whose assertion stops the caller. -/
def easyblink (i : Nat) (nums : Int) (pulse period : Nat) (s : EbState) :
    Logged EbWrite EbState :=
  let led := s.leds i
  if pulse ≤ period then
    if led.nums = -1 then do
      let led :=
        { led with numsBak := led.nums, pulseBak := led.pulse, npulseBak := led.npulse }.off
      touch ⟨s.now, i, decide led.Lit⟩
      let led := (led.blinkDataSet nums pulse period).blinkDelay ebWaitMsStart
      return (s.setLed i led).semRelease
    else if led.active then
      return s.setLed i
        { led with
          numsBak := nums
          pulseBak := ebMsToTick pulse
          npulseBak := ebMsToTick (period - pulse) }
    else return (s.setLed i ((led.blinkDataSet nums pulse period).blinkDelay 0)).semRelease
  else return s

def easyblinkStop (i : Nat) (s : EbState) : Logged EbWrite EbState := do
  let led := (s.leds i).off
  touch ⟨s.now, i, decide led.Lit⟩
  return s.setLed i { led with numsBak := 0, pulseBak := 0, npulseBak := 0, active := false }

end EbState

/-! ## The daemon -/

namespace EbLed

/-- The body of the loop in `correct_or_get_min_ticks`, apart from the minimum. -/
def correctTicks (elapsed : Option Nat) (led : EbLed) : EbLed :=
  match elapsed with
  | none => led
  | some tick =>
      if led.active then
        if led.correct then { led with correct := false }
        else { led with ticks := led.ticks - tick }
      else led

def minTicks (tickMin : Int) (led : EbLed) : Int :=
  if led.active ∧ led.ticks < tickMin then led.ticks else tickMin

/-- An LED that is due. -/
def switch (now i : Nat) (led : EbLed) : Logged EbWrite EbLed :=
  if led.shouldOn then
    if led.nums > 0 ∨ led.nums = -1 then do
      let led := led.on
      touch ⟨now, i, decide led.Lit⟩
      return { led with shouldOn := false, ticks := led.pulse }
    else if led.pulseBak ≠ 0 then
      return { led with
        nums := led.numsBak
        pulse := led.pulseBak
        npulse := led.npulseBak
        numsBak := 0
        pulseBak := 0
        npulseBak := 0
        ticks := if led.numsBak = -1 then ebMsToTick ebWaitMsEnd else 0 }
    else return { led with active := false }
  else do
    let led := led.off
    touch ⟨now, i, decide led.Lit⟩
    return { led with
      shouldOn := true
      ticks := led.npulse
      nums := if led.nums > 0 then led.nums - 1 else led.nums }

def subTicks (waitTick : Nat) (led : EbLed) : EbLed := { led with ticks := led.ticks - waitTick }

/-- The body of the `for` loop of the daemon. -/
def visit (now i waitTick : Nat) (led : EbLed) : Logged EbWrite EbLed :=
  let led := led.subTicks waitTick
  if led.active ∧ led.ticks ≤ 0 then led.switch now i else return led

end EbLed

namespace EbState

/-- The next step of `eb_daemon_thread_entry`, with the visit of an LED as one step. -/
def daemonStep (s : EbState) : Logged EbWrite EbState :=
  match s.daemon with
  | .absent => return s
  | .loop => return { s with daemon := .least none 0 ebWaitMaxTick }
  | .least elapsed i tickMin =>
      if i < ebLedNums then
        let led := (s.leds i).correctTicks elapsed
        return { s.setLed i led with daemon := .least elapsed (i + 1) (led.minTicks tickMin) }
      else return { s with daemon := .wait tickMin.toNat }
  | .wait waitTick =>
      return { s with daemon := if waitTick = 0 then .pass 0 0 else .take waitTick s.now }
  | .take waitTick tick =>
      if s.value > 0 then return { s with value := s.value - 1, daemon := .woken tick }
      else return { s with daemon := .blocked waitTick tick (s.now + waitTick) }
  | .blocked .. => return s
  | .woken tick => return { s with daemon := .least (some (s.now - tick)) 0 ebWaitMaxTick }
  | .pass waitTick i =>
      if i < ebLedNums then do
        let led ← (s.leds i).visit s.now i waitTick
        return { s.setLed i led with daemon := .pass waitTick (i + 1) }
      else return { s with daemon := .loop }

end EbState

/-- A step of the system. -/
inductive EbStep where
  | tick
  | daemon
  | init (activeLevel : PinLevel)
  | easyblink (i : Nat) (nums : Int) (pulse period : Nat)
  | stop (i : Nat)

/-- Calls are made for LEDs that `easyblink_init_led` has returned. -/
def EbStep.exec (x : EbStep) (s : EbState) : Logged EbWrite EbState :=
  match x with
  | tick => return s.rtTickIncrease
  | daemon => s.daemonStep
  | init activeLevel => s.initLed activeLevel
  | easyblink i nums pulse period =>
      if (s.leds i).init then s.easyblink i nums pulse period else return s
  | stop i => if (s.leds i).init then s.easyblinkStop i else return s

end SmartCar
