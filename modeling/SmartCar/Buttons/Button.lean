import SmartCar.Actuators.Encoder
import SmartCar.Imperative.Trace

/-!
# A button

`agile_button.c`: the record of a button, the calls that change it and the case
of `btn_process` that a round of the thread runs for it. What a button does
outside is to call back, so a round logs its callbacks.
-/

namespace SmartCar

open Imperative Logged

/-! ## The record -/

inductive AgileBtnEvent where
  | pressDown
  | hold
  | pressUp
  | click
  | sum
deriving DecidableEq

inductive AgileBtnState where
  | nonePress
  | checkPress
  | pressDown
  | pressHold
  | pressUp
deriving DecidableEq

/-- The pins of the keys. -/
inductive KeyPin where
  | key1
  | key2
  | key3
  | key4
deriving DecidableEq

/-- The callbacks of `buttonThread.c`. -/
inductive BtnCallback where
  | btnClickEventCb
  | btnHoldEventCb
deriving DecidableEq

structure AgileBtn where
  active : Bool
  repeatCnt : UInt8
  /-- in milliseconds -/
  eliminationTime : UInt8
  event : AgileBtnEvent
  state : AgileBtnState
  holdTime : UInt32
  prevHoldTime : UInt32
  /-- in milliseconds -/
  holdCycleTime : UInt32
  pin : KeyPin
  activeLogic : UInt8
  tickTimeout : UInt32
  eventCb : AgileBtnEvent → Option BtnCallback

/-- `RT_TICK_MAX` -/
def rtTickMax : UInt32 := 0xFFFFFFFF

/-- `AGILE_BUTTON_TWO_INTERVAL_TIME_DEFAULT` -/
def twoIntervalTime : Int32 := 500

namespace AgileBtn

/-! ## Calls -/

/-- `agile_btn_create` with memory from `rt_malloc`. -/
def create (pin : KeyPin) (activeLogic : UInt8) (now : Nat) : AgileBtn where
  active := false
  repeatCnt := 0
  eliminationTime := 15
  event := .sum
  state := .nonePress
  holdTime := 0
  prevHoldTime := 0
  holdCycleTime := 1000
  pin := pin
  activeLogic := activeLogic
  tickTimeout := rtTickGet now
  eventCb := fun _ => none

/-- What `agile_btn_start` does to a button that is not active. -/
def start (now : Nat) (btn : AgileBtn) : AgileBtn :=
  { btn with
    repeatCnt := 0
    event := .sum
    state := .nonePress
    holdTime := 0
    prevHoldTime := 0
    tickTimeout := rtTickGet now
    active := true }

/-- What `agile_btn_stop` does to an active button. -/
def stop (btn : AgileBtn) : AgileBtn := { btn with active := false }

def setEliminationTime (ms : UInt8) (btn : AgileBtn) : AgileBtn := { btn with eliminationTime := ms }

def setHoldCycleTime (ms : UInt32) (btn : AgileBtn) : AgileBtn := { btn with holdCycleTime := ms }

/-- `agile_btn_set_event_cb`, which returns an error for `BTN_EVENT_SUM`. -/
def setEventCb (event : AgileBtnEvent) (cb : Option BtnCallback) (btn : AgileBtn) :
    Option AgileBtn :=
  if event = .sum then none else some { btn with eventCb := Function.update btn.eventCb event cb }

end AgileBtn

/-! ## The thread -/

/-- A round of the thread at a button: the level of the pin, the tick that is read
first and the one that `agile_btn_cal_hold_time` reads last. -/
structure BtnPoll where
  level : UInt8
  now : Nat
  again : Nat

/-- A use of `AGILE_BUTTON_EVENT_CB`: the event, the callback if there is one, and
what the callback reads of the button. -/
structure BtnSignal where
  event : AgileBtnEvent
  cb : Option BtnCallback
  pin : KeyPin
  repeatCnt : UInt8
  holdTime : UInt32
deriving DecidableEq

namespace AgileBtn

/-- `btn->event = event; AGILE_BUTTON_EVENT_CB(btn, btn->event);` -/
def signal (event : AgileBtnEvent) (btn : AgileBtn) : Logged BtnSignal AgileBtn := do
  touch ⟨event, btn.eventCb event, btn.pin, btn.repeatCnt, btn.holdTime⟩
  return { btn with event }

/-- `agile_btn_cal_hold_time`; a tick is a millisecond. -/
def calHoldTime (p : BtnPoll) (btn : AgileBtn) : AgileBtn :=
  { btn with
    holdTime := (if rtTickGet p.now < btn.tickTimeout then
      rtTickMax - btn.tickTimeout + rtTickGet p.again
      else rtTickGet p.again - btn.tickTimeout) * (1000 / 1000) }

/-- The tick is past the timeout, and by less than half of the range of the tick. -/
def TimedOut (now : Nat) (btn : AgileBtn) : Prop :=
  rtTickGet now - btn.tickTimeout < rtTickMax / 2

instance (now : Nat) (btn : AgileBtn) : Decidable (btn.TimedOut now) :=
  inferInstanceAs (Decidable (_ < _))

/-- A case of the switch in `btn_process`. -/
def process (p : BtnPoll) (btn : AgileBtn) : Logged BtnSignal AgileBtn :=
  match btn.state with
  | .nonePress =>
      if p.level = btn.activeLogic then
        return { btn with
          tickTimeout := rtTickGet p.now +
            rtTickFromMillisecond btn.eliminationTime.toUInt32.toInt32
          state := .checkPress }
      else if btn.repeatCnt ≠ 0 ∧ btn.TimedOut p.now then
        return { btn with repeatCnt := 0 }
      else return btn
  | .checkPress =>
      if p.level = btn.activeLogic then
        if btn.TimedOut p.now then return { btn with state := .pressDown } else return btn
      else return { btn with state := .nonePress }
  | .pressDown => do
      let btn ← signal .pressDown
        { btn with holdTime := 0, prevHoldTime := 0, repeatCnt := btn.repeatCnt + 1 }
      return { btn with tickTimeout := rtTickGet p.now, state := .pressHold }
  | .pressHold =>
      if p.level = btn.activeLogic then
        let btn := btn.calHoldTime p
        if btn.holdTime - btn.prevHoldTime ≥ btn.holdCycleTime then do
          let btn ← signal .hold btn
          return { btn with prevHoldTime := btn.holdTime }
        else return btn
      else return { btn with state := .pressUp }
  | .pressUp => do
      let btn ← signal .pressUp btn
      let btn ← signal .click btn
      return { btn with
        tickTimeout := rtTickGet p.now + rtTickFromMillisecond twoIntervalTime
        state := .nonePress }

end AgileBtn

end SmartCar
