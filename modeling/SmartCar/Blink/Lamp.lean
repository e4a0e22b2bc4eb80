import SmartCar.Blink.EasyBlink

/-!
# A lamp

What `easyblink` is for: a lamp that flashes a number of times or for ever, each
flash with its time on and its time off. It knows its own calls and its own next
change, and neither a daemon nor other lamps.
-/

namespace SmartCar

open Imperative Logged

/-! ## Lamps -/

/-- A number of flashes, or flashes for ever. -/
structure Blinking where
  flashes : Option Nat
  onTime : Nat
  offTime : Nat

inductive LampPhase where
  | idle
  | dark
  | lit
deriving DecidableEq

structure Lamp where
  phase : LampPhase
  current : Blinking
  waiting : Option Blinking
  /-- the time of the next change -/
  due : Nat
  /-- No change comes before this time, however the steps interleave. -/
  earliest : Nat

/-- What changes a lamp. -/
inductive LampAct where
  | init (activeLow : Bool)
  | change
  | call (nums : Int) (pulse period : Nat)
  | stop

/-- The number of flashes that is called for by `nums`. -/
def flashesOf (nums : Int) : Option Nat := if nums = -1 then none else some nums.toNat

/-- What waits is lost if its time on is 0. -/
def Blinking.kept (b : Blinking) : Option Blinking := if b.onTime = 0 then none else some b

namespace Lamp

def dueAt (time : Nat) (l : Lamp) : Lamp := { l with due := time, earliest := time }

def change (now : Nat) (l : Lamp) : Logged (Nat × Bool) Lamp :=
  match l.phase with
  | .idle => return l
  | .lit => do
      touch (now, false)
      let current := { l.current with flashes := l.current.flashes.map (· - 1) }
      return dueAt (now + l.current.offTime) { l with phase := .dark, current }
  | .dark =>
      if l.current.flashes = some 0 then
        match l.waiting with
        | none => return { l with phase := .idle }
        | some b =>
            let time := if b.flashes = none then now + ebWaitMsEnd else now
            return dueAt time { l with current := b, waiting := none }
      else do
        touch (now, true)
        return dueAt (now + l.current.onTime) { l with phase := .lit }

/-- A lamp that flashes for ever starts over after a pause, which the daemon may cut
short; one that flashes a number of times makes the call wait; one that is idle begins
at once. -/
def call (now : Nat) (b : Blinking) (l : Lamp) : Logged (Nat × Bool) Lamp :=
  if l.current.flashes = none then do
    touch (now, false)
    return { l with
      phase := .dark
      current := b
      waiting := l.current.kept
      due := now + ebWaitMsStart
      earliest := now }
  else if l.phase ≠ .idle then return { l with waiting := b.kept }
  else return dueAt now { l with phase := .dark, current := b }

def stop (now : Nat) (l : Lamp) : Logged (Nat × Bool) Lamp := do
  touch (now, false)
  return { l with phase := .idle, waiting := none }

def exec (x : Nat × LampAct) (l : Lamp) : Logged (Nat × Bool) Lamp :=
  match x.2 with
  | .init activeLow => do
      touch (x.1, false)
      touch (x.1, activeLow)
      return l
  | .change => l.change x.1
  | .call nums pulse period =>
      if pulse ≤ period then l.call x.1 ⟨flashesOf nums, pulse, period - pulse⟩ else return l
  | .stop => l.stop x.1

/-- The lamp of an LED that has not been called. -/
def fresh : Lamp := ⟨.idle, ⟨some 0, 0, 0⟩, none, 0, 0⟩

/-- A change does not come too early. -/
def NotEarly (x : Nat × LampAct) (l : Lamp) : Prop :=
  x.2 = .change → l.phase ≠ .idle ∧ l.earliest ≤ x.1

/-- A change comes when it is due. -/
def OnTime (x : Nat × LampAct) (l : Lamp) : Prop :=
  x.2 = .change → l.phase ≠ .idle ∧ x.1 = l.due

end Lamp

/-! ## Records as lamps -/

namespace EbLed

def phase (led : EbLed) : LampPhase :=
  if led.active then if led.shouldOn then .dark else .lit else .idle

def current (led : EbLed) : Blinking := ⟨flashesOf led.nums, led.pulse, led.npulse⟩

def waiting (led : EbLed) : Option Blinking :=
  Blinking.kept ⟨flashesOf led.numsBak, led.pulseBak, led.npulseBak⟩

/-- The lamp of a record, with the time of its next change. -/
def lamp (due earliest : Nat) (led : EbLed) : Lamp :=
  ⟨led.phase, led.current, led.waiting, due, earliest⟩

end EbLed

section Records

variable {led : EbLed} {now i due earliest : Nat}

theorem ebMsToTick_eq (ms : Nat) : ebMsToTick ms = ms := Nat.mul_div_cancel ms (by decide)

theorem flashesOf_eq_none {nums : Int} : flashesOf nums = none ↔ nums = -1 := by
  simp [flashesOf]

theorem flashesOf_eq_zero {nums : Int} : flashesOf nums = some 0 ↔ ¬ (nums > 0 ∨ nums = -1) := by
  unfold flashesOf
  split
  · simp [*]
  · simp [*]

theorem on_lit (led : EbLed) : led.on.Lit := rfl

theorem off_not_lit (led : EbLed) : ¬ led.off.Lit := by
  unfold EbLed.off EbLed.Lit
  cases led.activeLevel with
  | low => simp
  | high => simp

theorem flashesOf_pred (nums : Int) :
    flashesOf (if nums > 0 then nums - 1 else nums) = (flashesOf nums).map (· - 1) := by
  unfold flashesOf
  by_cases hpos : nums > 0
  · rw [if_pos hpos, if_neg (by omega), if_neg (by omega), Option.map_some]
    congr 1
    omega
  · rw [if_neg hpos]
    split
    · rfl
    · rw [Int.toNat_of_nonpos (Int.not_lt.mp hpos)]
      rfl

theorem lamp_phase (hactive : led.active = true) :
    led.phase = if led.shouldOn then .dark else .lit := by
  rw [EbLed.phase, if_pos hactive]

/-- The record and its lamp after the same step at `now`. -/
structure SameStep (now i : Nat) (led : EbLed) (x : Logged EbWrite EbLed)
    (y : Logged (Nat × Bool) Lamp) : Prop where
  lamp : x.val.lamp y.val.due y.val.earliest = y.val
  log : x.log.map (fun w => (w.now, w.lit)) = y.log
  own : ∀ w ∈ x.log, w.led = i
  ticks : x.val.active = true → (now : Int) + x.val.ticks = y.val.due ∧ y.val.earliest = y.val.due
  init : x.val.init = led.init

/-- An LED that is due changes as the lamp does. -/
theorem switch_lamp (led : EbLed) (now i due earliest : Nat) (hactive : led.active = true) :
    SameStep now i led (led.switch now i) ((led.lamp due earliest).change now) := by
  unfold EbLed.switch Lamp.change
  cases hshould : led.shouldOn with
  | false =>
      have hphase : (led.lamp due earliest).phase = .lit := by
        rw [EbLed.lamp, lamp_phase hactive, hshould]
        rfl
      rw [hphase]
      have hpred := flashesOf_pred led.nums
      refine ⟨?_, ?_, ?_, ?_, ?_⟩
      · simpa [EbLed.lamp, EbLed.phase, EbLed.current, EbLed.waiting, EbLed.off, hactive,
          Lamp.dueAt] using hpred
      · simp [touch, log_bind, off_not_lit]
      · simp [touch, log_bind]
      · simp [EbLed.lamp, EbLed.current, EbLed.off, Lamp.dueAt]
      · rfl
  | true =>
      have hphase : (led.lamp due earliest).phase = .dark := by
        rw [EbLed.lamp, lamp_phase hactive, hshould]
        rfl
      rw [hphase]
      by_cases hleft : led.nums > 0 ∨ led.nums = -1
      · have hflashes : ¬ (led.lamp due earliest).current.flashes = some 0 := by
          rw [EbLed.lamp, EbLed.current, flashesOf_eq_zero, not_not]
          exact hleft
        simp only [if_true, if_pos hleft, if_neg hflashes]
        refine ⟨?_, ?_, ?_, ?_, ?_⟩
        · simp [EbLed.lamp, EbLed.phase, EbLed.current, EbLed.waiting, EbLed.on, hactive,
            Lamp.dueAt]
        · simp [touch, log_bind, on_lit]
        · simp [touch, log_bind]
        · simp [EbLed.lamp, EbLed.current, EbLed.on, Lamp.dueAt]
        · rfl
      · have hflashes : (led.lamp due earliest).current.flashes = some 0 := by
          rw [EbLed.lamp, EbLed.current, flashesOf_eq_zero]
          exact hleft
        simp only [if_true, if_neg hleft, if_pos hflashes]
        by_cases hbak : led.pulseBak = 0
        · have hwaiting : (led.lamp due earliest).waiting = none := by
            simp [EbLed.lamp, EbLed.waiting, Blinking.kept, hbak]
          rw [hwaiting, if_neg (not_not.mpr hbak)]
          refine ⟨?_, rfl, ?_, ?_, rfl⟩
          · rw [val_pure, val_pure, EbLed.lamp, hwaiting.symm]
            rfl
          · simp
          · simp
        · have hwaiting : (led.lamp due earliest).waiting =
              some ⟨flashesOf led.numsBak, led.pulseBak, led.npulseBak⟩ := by
            simp [EbLed.lamp, EbLed.waiting, Blinking.kept, hbak]
          rw [hwaiting, if_pos hbak]
          refine ⟨?_, rfl, ?_, ?_, rfl⟩
          · simp [EbLed.lamp, EbLed.phase, EbLed.current, EbLed.waiting, Blinking.kept, hactive,
              Lamp.dueAt]
          · simp
          · simp only [val_pure, flashesOf_eq_none, ebMsToTick_eq, Lamp.dueAt]
            split
            · simp
            · simp

/-- The record and the log of an LED after a call. -/
structure SameCall (i : Nat) (x : Logged EbWrite EbState) (y : Logged (Nat × Bool) Lamp) :
    Prop where
  lamp : (x.val.leds i).lamp y.val.due y.val.earliest = y.val
  log : x.log.map (fun w => (w.now, w.lit)) = y.log
  own : ∀ w ∈ x.log, w.led = i

/-- A call starts an LED over with a new time, or leaves its time as it is. -/
inductive CallTime (i due earliest : Nat) (s s' : EbState) (l : Lamp) : Prop
  | starts (led : EbLed) (state : s' = (s.setLed i led).semRelease) (active : led.active = true)
      (correct : led.correct = true) (init : led.init = (s.leds i).init)
      (now : l.earliest = s.now ∧ s.now ≤ l.due) (ticks : (s.now : Int) + led.ticks = l.due)
  | keeps (led : EbLed) (state : s' = s.setLed i led) (active : led.active = (s.leds i).active)
      (correct : led.correct = (s.leds i).correct) (init : led.init = (s.leds i).init)
      (ticks : led.ticks = (s.leds i).ticks) (same : l.earliest = earliest ∧ l.due = due)

theorem semRelease_leds (s : EbState) : s.semRelease.leds = s.leds := by
  unfold EbState.semRelease
  split
  · rfl
  · split <;> rfl

theorem easyblink_lamp (s : EbState) (i : Nat) (nums : Int) (pulse period due earliest : Nat) :
    SameCall i (s.easyblink i nums pulse period)
        (((s.leds i).lamp due earliest).exec (s.now, .call nums pulse period)) ∧
      CallTime i due earliest s (s.easyblink i nums pulse period).val
        (((s.leds i).lamp due earliest).exec (s.now, .call nums pulse period)).val := by
  unfold EbState.easyblink Lamp.exec
  by_cases hle : pulse ≤ period
  · simp only [if_pos hle, Lamp.call]
    by_cases hforever : (s.leds i).nums = -1
    · have hflashes : ((s.leds i).lamp due earliest).current.flashes = none :=
        flashesOf_eq_none.mpr hforever
      rw [if_pos hforever, if_pos hflashes]
      refine ⟨⟨?_, ?_, ?_⟩, .starts _ rfl rfl rfl rfl ⟨rfl, Nat.le_add_right ..⟩ ?_⟩
      · simp [semRelease_leds, EbState.setLed, EbLed.lamp, EbLed.phase, EbLed.current,
          EbLed.waiting, EbLed.blinkDelay, EbLed.blinkDataSet, EbLed.off, ebMsToTick_eq]
      · simp [touch, log_bind, off_not_lit]
      · simp [touch, log_bind]
      · simp [EbLed.blinkDelay, ebMsToTick_eq]
    · have hflashes : ¬ ((s.leds i).lamp due earliest).current.flashes = none :=
        fun hnone => hforever (flashesOf_eq_none.mp hnone)
      rw [if_neg hforever, if_neg hflashes]
      by_cases hactive : (s.leds i).active = true
      · have hphase : ((s.leds i).lamp due earliest).phase ≠ .idle := by
          rw [EbLed.lamp, lamp_phase hactive]
          split <;> simp
        rw [if_pos hactive, if_pos hphase]
        refine ⟨⟨?_, rfl, by simp⟩, .keeps _ rfl rfl rfl rfl rfl ⟨rfl, rfl⟩⟩
        simp [EbState.setLed, EbLed.lamp, EbLed.phase, EbLed.current, EbLed.waiting, ebMsToTick_eq]
      · have hphase : ((s.leds i).lamp due earliest).phase = .idle := by
          simp [EbLed.lamp, EbLed.phase, hactive]
        rw [if_neg hactive, if_neg (not_not.mpr hphase)]
        refine ⟨⟨?_, rfl, by simp⟩, .starts _ rfl rfl rfl rfl ⟨rfl, Nat.le_refl _⟩ ?_⟩
        · simp [semRelease_leds, EbState.setLed, EbLed.lamp, EbLed.phase, EbLed.current,
            EbLed.waiting, EbLed.blinkDelay, EbLed.blinkDataSet, ebMsToTick_eq, Lamp.dueAt]
        · simp [EbLed.blinkDelay, ebMsToTick_eq, Lamp.dueAt]
  · simp only [if_neg hle]
    refine ⟨⟨rfl, rfl, by simp⟩, .keeps (s.leds i) ?_ rfl rfl rfl rfl ⟨rfl, rfl⟩⟩
    rw [EbState.setLed, Function.update_eq_self]
    rfl

theorem easyblinkStop_lamp (s : EbState) (i due earliest : Nat) :
    SameCall i (s.easyblinkStop i) (((s.leds i).lamp due earliest).exec (s.now, .stop)) := by
  refine ⟨?_, ?_, ?_⟩
  · simp [EbState.easyblinkStop, Lamp.exec, Lamp.stop, EbState.setLed, EbLed.lamp, EbLed.phase,
      EbLed.current, EbLed.waiting, EbLed.off, Blinking.kept]
  · simp [EbState.easyblinkStop, Lamp.exec, Lamp.stop, touch, log_bind, off_not_lit]
  · simp [EbState.easyblinkStop, touch, log_bind]

/-- `easyblink_init_led` for the LED that is free. -/
theorem initLed_lamp {s : EbState} {i : Nat} (hfree : s.freeLed = some i)
    (activeLevel : PinLevel) (due earliest : Nat) :
    SameCall i (s.initLed activeLevel) (((s.leds i).lamp due earliest).exec
      (s.now, .init (decide (activeLevel = .low)))) := by
  unfold EbState.initLed
  rw [hfree]
  refine ⟨?_, ?_, ?_⟩
  · simp only [val_bind, val_pure]
    split
    · simp [EbState.setLed, EbLed.lamp, EbLed.phase, EbLed.current, EbLed.waiting, EbLed.off,
        Lamp.exec]
    · simp [EbState.setLed, EbLed.lamp, EbLed.phase, EbLed.current, EbLed.waiting, EbLed.off,
        Lamp.exec]
  · simp [Lamp.exec, touch, log_bind, off_not_lit]
    exact ⟨Eq.symm, Eq.symm⟩
  · simp [touch, log_bind]

end Records

end SmartCar
