import Mathlib.Algebra.Ring.Parity
import Mathlib.Order.Monotone.Basic
import SmartCar.Blink.Flashes

/-!
# LEDs on time

While no time passes but when the daemon waits, and nobody calls while it goes through
the LEDs, the daemon never sleeps past an LED: each change comes at the tick at which
it is due, whatever the other LED does.
-/

namespace SmartCar

open Imperative Logged

/-! ## Prompt runs -/

/-- The daemon waits for a timer, or it does not run. -/
def EbDaemon.Waits : EbDaemon → Prop
  | .absent | .blocked .. => True
  | _ => False

/-- The daemon is in the `for` loop. -/
def EbDaemon.Passes : EbDaemon → Prop
  | .pass .. => True
  | _ => False

instance : DecidablePred EbDaemon.Waits
  | .absent | .blocked .. => .isTrue trivial
  | .loop | .least .. | .wait _ | .take .. | .woken _ | .pass .. => .isFalse id

instance : DecidablePred EbDaemon.Passes
  | .pass .. => .isTrue trivial
  | .absent | .loop | .least .. | .wait _ | .take .. | .blocked .. | .woken _ => .isFalse id

/-- Time passes only while the daemon waits, and `easyblink` is not called from the time
at which the daemon's timer fires until it has gone through the LEDs. The mutex of the
package would not see to the first part of that time. -/
def EbStep.Prompt (x : EbStep) (s : EbState) : Prop :=
  match x with
  | tick => s.daemon.Waits
  | easyblink .. => ¬ s.daemon.Passes
  | daemon | init _ | stop _ => True

instance (x : EbStep) (s : EbState) : Decidable (x.Prompt s) :=
  match x with
  | .tick => inferInstanceAs (Decidable s.daemon.Waits)
  | .easyblink .. => inferInstanceAs (Decidable (¬ s.daemon.Passes))
  | .daemon | .init _ | .stop _ => .isTrue trivial

namespace EbState

/-- LED `i` does not change within `waitTick`, or the semaphore has been released. -/
def Rests (waitTick : Int) (i : Nat) (s : EbState) : Prop :=
  (s.leds i).active = true → waitTick ≤ (s.leds i).ticks ∨ 0 < s.value

/-- What the daemon waits for comes before the next change of every LED. -/
def Planned (s : EbState) : Prop :=
  match s.daemon with
  | .least _ j tickMin => ∀ i < j, s.Rests tickMin i
  | .wait waitTick => 0 < waitTick → ∀ i < ebLedNums, s.Rests waitTick i
  | .take waitTick tick =>
      tick = s.now ∧ 0 < waitTick ∧ ∀ i < ebLedNums, s.Rests waitTick i
  | .blocked waitTick tick timeout =>
      timeout = tick + waitTick ∧ s.now < timeout ∧ ∀ i < ebLedNums, s.Rests waitTick i
  | .absent | .loop | .woken _ | .pass .. => True

end EbState

section Plans

variable {i : Nat} {s s' : EbState} {led : EbLed} {x : EbStep}

/-- The LEDs rest as long as before, or have been stopped. -/
theorem EbState.Rests.mono {waitTick : Int} (h : s.Rests waitTick i)
    (hleds : (s'.leds i).active = true →
      (s.leds i).active = true ∧ (s'.leds i).ticks = (s.leds i).ticks)
    (hvalue : 0 < s.value → 0 < s'.value) : s'.Rests waitTick i := by
  intro hactive
  obtain ⟨hactive', hticks⟩ := hleds hactive
  rw [hticks]
  exact (h hactive').imp id hvalue

theorem EbState.Planned.mono (h : s.Planned) (hdaemon : s'.daemon = s.daemon)
    (hnow : s'.now = s.now)
    (hleds : ∀ i, (s'.leds i).active = true →
      (s.leds i).active = true ∧ (s'.leds i).ticks = (s.leds i).ticks)
    (hvalue : 0 < s.value → 0 < s'.value) : s'.Planned := by
  unfold EbState.Planned at h ⊢
  rw [hdaemon, hnow]
  cases hplace : s.daemon with
  | absent | loop | woken | pass => trivial
  | least elapsed j tickMin =>
      rw [hplace] at h
      exact fun i hi => (h i hi).mono (hleds i) hvalue
  | wait waitTick =>
      rw [hplace] at h
      exact fun hwait i hi => (h hwait i hi).mono (hleds i) hvalue
  | take waitTick tick | blocked waitTick tick timeout =>
      rw [hplace] at h
      exact ⟨h.1, h.2.1, fun i hi => (h.2.2 i hi).mono (hleds i) hvalue⟩

/-- The semaphore has been released: the daemon will look again. -/
theorem EbState.Planned.signal (h : s.Planned) (hdaemon : s'.daemon = s.daemon)
    (hnow : s'.now = s.now) (hvalue : 0 < s'.value) : s'.Planned := by
  unfold EbState.Planned at h ⊢
  rw [hdaemon, hnow]
  cases hplace : s.daemon with
  | absent | loop | woken | pass => trivial
  | least elapsed j tickMin => exact fun i _ _ => .inr hvalue
  | wait waitTick => exact fun _ i _ _ => .inr hvalue
  | take waitTick tick | blocked waitTick tick timeout =>
      rw [hplace] at h
      exact ⟨h.1, h.2.1, fun i _ _ => .inr hvalue⟩

theorem semRelease_cases (s : EbState) :
    (∃ tick, s.semRelease.daemon = .woken tick) ∨
      s.semRelease.daemon = s.daemon ∧ 0 < s.semRelease.value := by
  obtain ⟨now, value, leds, daemon⟩ := s
  unfold EbState.semRelease
  cases daemon with
  | blocked waitTick tick timeout => exact .inl ⟨tick, rfl⟩
  | absent | loop | least | wait | take | woken | pass =>
      right
      dsimp only
      split
      · exact ⟨rfl, Nat.succ_pos value⟩
      next hfull =>
        exact ⟨rfl, Nat.lt_of_lt_of_le (by decide) (Nat.not_lt.mp hfull)⟩

theorem semRelease_planned (h : s.Planned) : (s.setLed i led).semRelease.Planned := by
  rw [semRelease_setLed]
  obtain ⟨tick, hwoken⟩ | ⟨hdaemon, hvalue⟩ := semRelease_cases s
  · rw [EbState.Planned, EbState.setLed_daemon, hwoken]
    trivial
  · exact h.signal hdaemon (semRelease_now s) hvalue

/-- A record whose LED rests as long as before. -/
theorem EbState.Planned.setLed (h : s.Planned)
    (hled : led.active = true → (s.leds i).active = true ∧ led.ticks = (s.leds i).ticks) :
    (s.setLed i led).Planned := by
  refine h.mono rfl rfl (fun j hactive => ?_) id
  rcases eq_or_ne j i with rfl | hne
  · rw [setLed_same] at hactive ⊢
    exact hled hactive
  · rw [setLed_of_ne hne] at hactive ⊢
    exact ⟨hactive, rfl⟩

theorem tick_planned (h : s.Planned) (hwaits : s.daemon.Waits) : s.rtTickIncrease.Planned := by
  obtain ⟨waitTick, tick, timeout, -, -, htick⟩ | ⟨hlater, htick⟩ := tick_cases s
  · rw [htick]
    trivial
  · rw [htick]
    unfold EbState.Planned at h ⊢
    dsimp only
    cases hplace : s.daemon with
    | absent => trivial
    | blocked waitTick tick timeout =>
        rw [hplace] at h
        exact ⟨h.1, hlater _ _ _ hplace, h.2.2⟩
    | loop | least | wait | take | woken | pass =>
        rw [hplace] at hwaits
        exact hwaits.elim

theorem minTicks_le (led : EbLed) (tickMin : Int) :
    led.minTicks tickMin ≤ tickMin ∧ (led.active = true → led.minTicks tickMin ≤ led.ticks) := by
  unfold EbLed.minTicks
  split
  next hless => exact ⟨Int.le_of_lt hless.2, fun _ => Int.le_refl _⟩
  next hmore =>
    refine ⟨Int.le_refl _, fun hactive => Int.not_lt.mp fun hless => ?_⟩
    exact hmore ⟨hactive, hless⟩

theorem least_planned {elapsed : Option Nat} {j : Nat} {tickMin : Int}
    (h : ∀ i < j, s.Rests tickMin i) (hled : led = (s.leds j).correctTicks elapsed) :
    EbState.Planned
      { s.setLed j led with daemon := .least elapsed (j + 1) (led.minTicks tickMin) } := by
  intro i hi hactive
  obtain ⟨hmin, hown⟩ := minTicks_le led tickMin
  rcases eq_or_ne i j with rfl | hne
  · dsimp only at hactive ⊢
    rw [setLed_same] at hactive ⊢
    exact .inl (hown hactive)
  · dsimp only at hactive ⊢
    rw [setLed_of_ne hne] at hactive ⊢
    exact (h i (by omega) hactive).imp (Int.le_trans hmin) id

theorem daemonStep_planned (h : s.Planned) : s.daemonStep.val.Planned := by
  unfold EbState.daemonStep
  cases hplace : s.daemon with
  | absent | blocked => exact h
  | loop => exact fun i hi => absurd hi (Nat.not_lt_zero i)
  | woken tick => exact fun i hi => absurd hi (Nat.not_lt_zero i)
  | least elapsed j tickMin =>
      rw [EbState.Planned, hplace] at h
      dsimp only
      split
      · exact least_planned h rfl
      next hlast =>
        intro hwait i hi hactive
        refine (h i (by omega) hactive).imp (fun hrest => ?_) id
        rw [val_pure]
        dsimp only
        omega
  | wait waitTick =>
      rw [EbState.Planned, hplace] at h
      by_cases hwait : waitTick = 0
      · simp only [hwait, if_true]
        trivial
      · simp only [hwait, if_false]
        exact ⟨rfl, Nat.pos_of_ne_zero hwait, h (Nat.pos_of_ne_zero hwait)⟩
  | take waitTick tick =>
      rw [EbState.Planned, hplace] at h
      dsimp only
      split
      · trivial
      next hvalue =>
        obtain ⟨htick, hwait, hrests⟩ := h
        exact ⟨by rw [htick], Nat.lt_add_of_pos_right hwait, hrests⟩
  | pass waitTick j =>
      dsimp only
      split <;> trivial

/-- Every step of a prompt run keeps the plan of the daemon. -/
theorem ebStep_planned (hsound : s.Sound) (h : s.Planned) (hprompt : x.Prompt s) :
    (x.exec s).val.Planned := by
  cases x with
  | tick => exact tick_planned h hprompt
  | daemon => exact daemonStep_planned h
  | init activeLevel =>
      rw [EbStep.exec]
      cases hfree : s.freeLed with
      | none =>
          rw [EbState.initLed, hfree]
          exact h
      | some j =>
          obtain ⟨led, hactive, -, ⟨-, hval⟩ | ⟨-, hval⟩⟩ := initLed_cases hfree activeLevel
          · rw [hval]
            refine h.setLed fun hon => ?_
            rw [hactive, hsound.idle_of_free hfree] at hon
            cases hon
          · rw [hval]
            trivial
  | easyblink j nums pulse period =>
      rw [EbStep.exec]
      split
      · obtain ⟨-, htime⟩ := easyblink_lamp s j nums pulse period 0 0
        cases htime with
        | starts led hstate =>
            rw [hstate]
            exact semRelease_planned h
        | keeps led hstate hactive hcorrect hinit hticks =>
            rw [hstate]
            exact h.setLed fun hon => ⟨hactive.symm.trans hon, hticks⟩
      · exact h
  | stop j =>
      rw [EbStep.exec]
      split
      · refine h.setLed fun hon => ?_
        cases hon
      · exact h

end Plans

/-! ## Every change is on time -/

/-- LED `i` will be found due when its lamp is, which is not past. -/
def OnSchedule (i : Nat) (s : EbState) (l : Lamp) : Prop :=
  (s.leds i).active = true → s.promise i = l.due ∧ s.now ≤ l.due

section Times

variable {i : Nat} {s s' : EbState} {l : Lamp} {x : EbStep}

theorem OnSchedule.still (h : OnSchedule i s l) (hstill : Still i s s') : OnSchedule i s' l := by
  intro hactive
  rw [hstill.active] at hactive
  rw [hstill.promise hactive, hstill.now]
  exact h hactive

theorem OnSchedule.of_idle (hidle : (s.leds i).active = false) : OnSchedule i s l := by
  intro hactive
  rw [hidle] at hactive
  cases hactive

/-- The timer fires when an LED is due, and not later. -/
theorem tick_onSchedule (h : OnSchedule i s l) (hsound : s.Sound) (hplan : s.Planned)
    (hi : i < ebLedNums) (hwaits : s.daemon.Waits) : OnSchedule i s.rtTickIncrease l := by
  intro hactive
  rw [tick_leds] at hactive
  obtain ⟨hpromise, -⟩ := h hactive
  have htimed := hsound.timed
  cases hplace : s.daemon with
  | absent =>
      have hinit := hsound.called i hactive
      rw [hsound.started hplace i] at hinit
      cases hinit
  | blocked waitTick tick timeout =>
      rw [EbState.Timed, hplace] at htimed
      rw [EbState.Planned, hplace] at hplan
      obtain ⟨hpast, -, hvalue⟩ := htimed
      obtain ⟨htimeout, hlater, hrests⟩ := hplan
      have hrest := (hrests i hi hactive).resolve_right (by omega)
      simp only [EbState.promise, EbState.pending, hplace] at hpromise
      obtain ⟨_, _, _, hfire, hnow, htick⟩ | ⟨hlater', htick⟩ := tick_cases s
      · obtain ⟨rfl, rfl, rfl⟩ := EbDaemon.blocked.inj (hplace.symm.trans hfire)
        rw [htick]
        simp only [EbState.promise, EbState.pending, Nat.zero_le, if_true]
        omega
      · have hnow := hlater' _ _ _ hplace
        rw [htick]
        simp only [EbState.promise, EbState.pending, hplace]
        omega
  | loop | least | wait | take | woken | pass =>
      rw [hplace] at hwaits
      exact hwaits.elim

theorem change_due {now : Nat} (hphase : (l.change now).val.phase ≠ .idle) :
    now ≤ (l.change now).val.due := by
  unfold Lamp.change at hphase ⊢
  cases hlamp : l.phase with
  | idle =>
      rw [hlamp] at hphase
      exact absurd hlamp hphase
  | lit => exact Nat.le_add_right ..
  | dark =>
      simp only [hlamp] at hphase ⊢
      split
      next hdone =>
        rw [if_pos hdone] at hphase
        cases hwaiting : l.waiting with
        | none => simp [hwaiting] at hphase
        | some b =>
            dsimp only [val_pure, Lamp.dueAt]
            split
            · exact Nat.le_add_right ..
            · exact Nat.le_refl _
      · exact Nat.le_add_right ..

theorem change_onSchedule {waitTick : Nat} (h : OnSchedule i s l) (hkeeps : KeepsTime i s l)
    (hdaemon : s.daemon = .pass waitTick i) (hi : i < ebLedNums)
    (hactive : (s.leds i).active = true) (hticks : (s.leds i).ticks - waitTick ≤ 0) :
    OnSchedule i s.daemonStep.val (l.change s.now).val ∧ l.phase ≠ .idle ∧ s.now = l.due := by
  obtain ⟨hpromise, hlate⟩ := h hactive
  have hsame := switch_lamp ((s.leds i).subTicks waitTick) s.now i l.due l.earliest hactive
  rw [show ((s.leds i).subTicks waitTick).lamp l.due l.earliest = l from hkeeps.lamp] at hsame
  refine ⟨fun hon => ?_, ?_, ?_⟩
  · have hnext : ¬ i + 1 ≤ i := Nat.not_succ_le_self i
    rw [daemonStep_due hdaemon hi hactive hticks, val_bind, val_pure] at hon ⊢
    dsimp only at hon
    rw [setLed_same] at hon
    have hdue := (hsame.ticks hon).1
    have hnew : (l.change s.now).val.phase ≠ .idle := by
      rw [← hsame.lamp, EbLed.lamp, lamp_phase hon]
      split <;> simp
    simp only [EbState.promise, EbState.pending, setLed_same, hnext, if_false, EbState.setLed_now]
    exact ⟨by omega, change_due hnew⟩
  · rw [← hkeeps.lamp, EbLed.lamp, lamp_phase hactive]
    split <;> simp
  · simp only [EbState.promise, EbState.pending, hdaemon, Nat.le_refl, if_true] at hpromise
    omega

/-- An LED that is marked is not yet counted down. -/
theorem semRelease_pending {led : EbLed} (hcorrect : led.correct = true)
    (hpasses : ¬ s.daemon.Passes) : (s.setLed i led).semRelease.pending i = 0 := by
  rw [semRelease_setLed]
  obtain ⟨tick, hwoken⟩ | ⟨hdaemon, -⟩ := semRelease_cases s
  · simp [EbState.pending, hwoken, setLed_same, hcorrect]
  · cases hplace : s.daemon with
    | pass waitTick j =>
        rw [hplace] at hpasses
        exact absurd trivial hpasses
    | blocked waitTick tick timeout =>
        rw [EbState.semRelease, hplace] at hdaemon
        cases hdaemon
    | least elapsed j tickMin =>
        cases elapsed with
        | none | some elapsed => simp [EbState.pending, hdaemon, hplace, setLed_same, hcorrect]
    | absent | loop | wait | take | woken =>
        simp [EbState.pending, hdaemon, hplace, setLed_same, hcorrect]

theorem easyblink_onSchedule {nums : Int} {pulse period : Nat} (h : OnSchedule i s l)
    (hkeeps : KeepsTime i s l) (hpasses : ¬ s.daemon.Passes) :
    OnSchedule i (s.easyblink i nums pulse period).val
      (l.exec (s.now, .call nums pulse period)).val := by
  obtain ⟨-, htime⟩ := easyblink_lamp s i nums pulse period l.due l.earliest
  rw [hkeeps.lamp] at htime
  intro hactive
  cases htime with
  | starts led hstate hon hcorrect hled hnow hticks =>
      rw [hstate, EbState.promise, semRelease_pending hcorrect hpasses, semRelease_leds,
        setLed_same, semRelease_now, EbState.setLed_now]
      exact ⟨by omega, hnow.2⟩
  | keeps led hstate hon hcorrect hled hticks hsame =>
      rw [hstate, setLed_same, hon] at hactive
      rw [hstate, hsame.2]
      obtain ⟨hpromise, hlate⟩ := h hactive
      refine ⟨?_, hlate⟩
      simp only [EbState.promise, EbState.pending, setLed_same, EbState.setLed_now,
        EbState.setLed_daemon, hticks, hcorrect] at hpromise ⊢
      exact hpromise

/-- A step of a prompt run keeps every LED on schedule. -/
theorem ebStep_onSchedule (h : OnSchedule i s l) (hsound : s.Sound) (hplan : s.Planned)
    (hkeeps : KeepsTime i s l) (hi : i < ebLedNums) (hprompt : x.Prompt s) :
    OnSchedule i (x.exec s).val (run (unlogged Lamp.exec) l (x.acts i s)) ∧
      Meets Lamp.OnTime (unlogged Lamp.exec) l (x.acts i s) := by
  cases ebStep_of hsound hi x with
  | tick hstep =>
      subst hstep
      exact ⟨tick_onSchedule h hsound hplan hi hprompt, trivial⟩
  | rest hacts hstill hlog =>
      rw [hacts]
      exact ⟨h.still hstill, trivial⟩
  | change waitTick hdaemon hactive hticks hstep =>
      subst hstep
      obtain ⟨hnext, hphase, hdue⟩ := change_onSchedule h hkeeps hdaemon hi hactive hticks
      rw [acts_pass hdaemon hi hactive hticks]
      exact ⟨hnext, fun _ => ⟨hphase, hdue⟩, trivial⟩
  | init activeLevel hfree hstep =>
      subst hstep
      rw [show (EbStep.init activeLevel).acts i s = _ from if_pos hfree]
      exact ⟨.of_idle (initLed_idle hsound hfree activeLevel), by simp [Lamp.OnTime], trivial⟩
  | call nums pulse period hinit hstep =>
      subst hstep
      rw [show (EbStep.easyblink i nums pulse period).acts i s = _ from if_pos ⟨rfl, hinit⟩,
        EbStep.exec, if_pos hinit]
      exact ⟨easyblink_onSchedule h hkeeps hprompt, by simp [Lamp.OnTime], trivial⟩
  | stop hinit hstep =>
      subst hstep
      rw [show (EbStep.stop i).acts i s = _ from if_pos ⟨rfl, hinit⟩, EbStep.exec, if_pos hinit]
      refine ⟨.of_idle ?_, by simp [Lamp.OnTime], trivial⟩
      simp [EbState.easyblinkStop, setLed_same]

theorem promptSteps_lamp {xs : List EbStep} (hsound : s.Sound) (hplan : s.Planned)
    (hkeeps : KeepsTime i s l) (h : OnSchedule i s l) (hi : i < ebLedNums)
    (hprompt : Meets EbStep.Prompt (unlogged EbStep.exec) s xs) :
    Simulated (EbWrite.ofLed i) Lamp.exec Lamp.OnTime
      (fun s l => (s.Sound ∧ s.Planned) ∧ KeepsTime i s l ∧ OnSchedule i s l)
      ⟨run (unlogged EbStep.exec) s xs, trace EbStep.exec s xs⟩ l
      (trace (acting EbStep.exec (EbStep.acts i)) s xs) := by
  refine simulated_run ?_ hprompt ⟨⟨hsound, hplan⟩, hkeeps, h⟩
  rintro x s l ⟨⟨hsound, hplan⟩, hkeeps, h⟩ hx
  have hstep := ebStep_lampStep hsound hi hkeeps x
  obtain ⟨hnext, htimes⟩ := ebStep_onSchedule h hsound hplan hkeeps hi hx
  exact ⟨⟨⟨ebStep_sound hsound x, ebStep_planned hsound hplan hx⟩, hstep.related, hnext⟩,
    hstep.log, htimes⟩

/-- While the daemon waits, no LED is due. -/
theorem waits_before_due (h : OnSchedule i s l) (hsound : s.Sound) (hplan : s.Planned)
    (hi : i < ebLedNums) (hwaits : s.daemon.Waits) (hactive : (s.leds i).active = true) :
    s.now < l.due := by
  obtain ⟨-, hnext⟩ := tick_onSchedule h hsound hplan hi hwaits (by rw [tick_leds]; exact hactive)
  rw [tick_now] at hnext
  exact hnext

/-- A daemon that waits is in no visit. -/
theorem EbDaemon.Waits.visits {d : EbDaemon} (h : d.Waits) : d.visits = none := by
  cases d with
  | absent | blocked => rfl
  | loop | least | wait | take | woken | pass => exact h.elim

/-- What `main` does before it calls for a beep. -/
def beforeBeep : List EbStep := [.init .low, .easyblink 0 (-1) 500 1000, .init .high]

/-- The daemon, until it waits. -/
def untilWaits : List EbStep := List.replicate 26 .daemon

end Times

/-! ## The schedule of a call -/

/-- The write number `k` of a call at `start`. -/
def Blinking.changeAt (b : Blinking) (start k : Nat) : Nat × Bool :=
  (start + k / 2 * (b.onTime + b.offTime) + k % 2 * b.onTime, decide (k % 2 = 0))

/-- There is a write number `k`. -/
def Blinking.Has (b : Blinking) (k : Nat) : Prop := ∀ n, b.flashes = some n → k < 2 * n

/-- A lamp for which nothing waits has made `k` writes. -/
inductive Lamp.At (b : Blinking) (start k : Nat) (l : Lamp) : Prop
  | dark (flash : Nat) (even : k = 2 * flash) (phase : l.phase = .dark)
      (current : l.current = { b with flashes := b.flashes.map (· - flash) })
      (waiting : l.waiting = none) (due : l.due = (b.changeAt start k).1)
      (enough : ∀ n, b.flashes = some n → flash ≤ n)
  | lit (flash : Nat) (odd : k = 2 * flash + 1) (phase : l.phase = .lit)
      (current : l.current = { b with flashes := b.flashes.map (· - flash) })
      (waiting : l.waiting = none) (due : l.due = (b.changeAt start k).1)
      (enough : ∀ n, b.flashes = some n → flash < n)
  | idle (phase : l.phase = .idle) (done : b.flashes.map (2 * ·) = some k)

section Schedules

variable {b : Blinking} {start k : Nat} {l : Lamp} {acts : List (Nat × LampAct)}

theorem changeAt_even (flash : Nat) : b.changeAt start (2 * flash) =
    (start + flash * (b.onTime + b.offTime), true) := by
  simp [Blinking.changeAt]

theorem changeAt_odd (flash : Nat) : b.changeAt start (2 * flash + 1) =
    (start + flash * (b.onTime + b.offTime) + b.onTime, false) := by
  have hdiv : (2 * flash + 1) / 2 = flash := by omega
  have hmod : (2 * flash + 1) % 2 = 1 := by omega
  simp [Blinking.changeAt, hdiv, hmod]

theorem begin_at (hwaiting : l.waiting = none) : (l.begin start b).At b start 0 := by
  refine .dark 0 rfl rfl ?_ hwaiting ?_ fun n _ => Nat.zero_le n
  · cases hflashes : b.flashes with
    | none | some n => simp [Lamp.begin, Lamp.dueAt, ← hflashes]
  · simp [Lamp.begin, Lamp.dueAt, Blinking.changeAt]

theorem flashes_pred (flash : Nat) :
    (b.flashes.map (· - flash)).map (· - 1) = b.flashes.map (· - (flash + 1)) := by
  rw [Option.map_map]
  rfl

theorem flashes_left {flash : Nat} (henough : ∀ n, b.flashes = some n → flash ≤ n) :
    b.flashes.map (· - flash) = some 0 ↔ b.flashes = some flash := by
  cases hflashes : b.flashes with
  | none => simp
  | some n =>
      have hle := henough n hflashes
      simp only [Option.map_some, Option.some_inj]
      omega

/-- A change that is on time is the next of the schedule. -/
theorem change_at (h : l.At b start k) (hphase : l.phase ≠ .idle) :
    (b.Has k ∧ (l.change l.due).log = [b.changeAt start k] ∧
        (l.change l.due).val.At b start (k + 1)) ∨
      (l.change l.due).log = [] ∧ (l.change l.due).val.At b start k := by
  cases h with
  | idle phase done => exact absurd phase hphase
  | lit flash hodd phase current waiting due enough =>
      subst hodd
      rw [changeAt_odd] at due ⊢
      cases change_changed l.due hphase waiting with
      | on hdark | done hdark =>
          rw [phase] at hdark
          cases hdark
      | off hlit hresult =>
          rw [hresult]
          refine .inl ⟨fun n hn => ?_, by rw [due], ?_⟩
          · have hless := enough n hn
            omega
          · refine .dark (flash + 1) (by omega) rfl ?_ waiting ?_ fun n hn => enough n hn
            · simp only [current, flashes_pred]
            · rw [show 2 * flash + 1 + 1 = 2 * (flash + 1) by omega, changeAt_even]
              simp only [current, due]
              rw [Nat.add_mul]
              omega
  | dark flash heven phase current waiting due enough =>
      subst heven
      rw [changeAt_even] at due ⊢
      have hleft : l.current.flashes = some 0 ↔ b.flashes = some flash := by
        rw [current]
        exact flashes_left enough
      cases change_changed l.due hphase waiting with
      | off hlit =>
          rw [phase] at hlit
          cases hlit
      | on hdark hmore hresult =>
          rw [hresult]
          have hless : ∀ n, b.flashes = some n → flash < n := by
            intro n hn
            refine Nat.lt_of_le_of_ne (enough n hn) ?_
            rintro rfl
            exact hmore (hleft.mpr hn)
          refine .inl ⟨fun n hn => ?_, by rw [due], ?_⟩
          · have hflash := hless n hn
            omega
          · refine .lit flash rfl rfl current waiting ?_ hless
            rw [changeAt_odd]
            simp only [current, due]
      | done hdark hdone hresult =>
          rw [hresult]
          refine .inr ⟨rfl, .idle rfl ?_⟩
          rw [hleft.mp hdone]
          rfl

/-- The changes of a lamp that are on time are those of the schedule, one after the other. -/
theorem changes_at (h : l.At b start k) (hacts : ∀ a ∈ acts, a.2 = .change)
    (hmeets : Meets Lamp.OnTime (unlogged Lamp.exec) l acts) :
    ∃ m, trace Lamp.exec l acts = (List.range' k m).map (b.changeAt start) ∧
      (∀ j ∈ List.range' k m, b.Has j) ∧
      (run (unlogged Lamp.exec) l acts).At b start (k + m) := by
  induction acts generalizing l k with
  | nil => exact ⟨0, rfl, by simp, h⟩
  | cons a acts ih =>
      obtain ⟨now, act⟩ := a
      have hact : act = .change := hacts _ List.mem_cons_self
      subst hact
      obtain ⟨hphase, hdue⟩ := hmeets.1 rfl
      change now = l.due at hdue
      subst hdue
      have hrest := fun a ha => hacts a (List.mem_cons_of_mem _ ha)
      have hmeets' : Meets Lamp.OnTime _ (l.change l.due).val acts := hmeets.2
      rw [trace_cons, run_cons]
      change ∃ m, (l.change l.due).log ++ trace Lamp.exec (l.change l.due).val acts = _ ∧ _ ∧
        (run (unlogged Lamp.exec) (l.change l.due).val acts).At _ _ _
      obtain ⟨hhas, hlog, hnext⟩ | ⟨hlog, hnext⟩ := change_at h hphase
      · obtain ⟨m, hm, hall, hlast⟩ := ih hnext hrest hmeets'
        refine ⟨m + 1, ?_, ?_, ?_⟩
        · rw [hlog, hm]
          rfl
        · rw [List.range'_succ]
          exact List.forall_mem_cons.mpr ⟨hhas, hall⟩
        · rwa [← Nat.add_assoc, Nat.add_right_comm]
      · obtain ⟨m, hm, hall, hlast⟩ := ih hnext hrest hmeets'
        refine ⟨m, ?_, hall, hlast⟩
        rw [hlog, hm, List.nil_append]

theorem changeAt_succ (b : Blinking) (start k : Nat) :
    (b.changeAt start k).1 ≤ (b.changeAt start (k + 1)).1 := by
  obtain ⟨flash, rfl | rfl⟩ := Nat.even_or_odd' k
  · rw [changeAt_even, changeAt_odd]
    exact Nat.le_add_right ..
  · rw [changeAt_odd, show 2 * flash + 1 + 1 = 2 * (flash + 1) by omega, changeAt_even]
    dsimp only
    rw [Nat.add_mul]
    omega

/-- The schedule goes forward. -/
theorem changeAt_mono (b : Blinking) (start : Nat) : Monotone fun k => (b.changeAt start k).1 :=
  monotone_nat_of_le_succ (changeAt_succ b start)

/-- A lamp that is not late has made just the writes of the schedule until `now`. -/
theorem at_iff {now k : Nat} (h : l.At b start k) (hlater : l.phase ≠ .idle → now < l.due) (j : Nat)
    (hhas : b.Has j) (hnow : (b.changeAt start j).1 ≤ now) : j < k := by
  by_contra hmore
  have hmono := changeAt_mono b start (Nat.not_lt.mp hmore)
  dsimp only at hmono
  cases h with
  | dark flash even phase current waiting due | lit flash odd phase current waiting due =>
      have hdue := hlater (by rw [phase]; simp)
      omega
  | idle phase done =>
      obtain ⟨n, hn, hk⟩ := Option.map_eq_some_iff.mp done
      exact hmore (hk ▸ hhas n hn)

end Schedules

/-! ## Times of writes -/

section Clock

variable {i : Nat} {s : EbState} {l : Lamp}

theorem exec_time (a : Nat × LampAct) : ∀ w ∈ (l.exec a).log, w.1 = a.1 := by
  obtain ⟨now, act⟩ := a
  cases act with
  | init activeLow => simp [Lamp.exec, touch, log_bind]
  | stop => simp [Lamp.exec, Lamp.stop, touch, log_bind]
  | change =>
      unfold Lamp.exec Lamp.change
      dsimp only
      split
      · simp
      · simp [touch, log_bind]
      · split
        · split <;> simp
        · simp [touch, log_bind]
  | call nums pulse period =>
      unfold Lamp.exec Lamp.call
      dsimp only
      split
      · split
        · simp [touch, log_bind]
        · split <;> simp
      · simp

theorem acts_time (x : EbStep) : ∀ a ∈ x.acts i s, a.1 = s.now := by
  cases x with
  | tick => simp [EbStep.acts]
  | daemon =>
      unfold EbStep.acts
      dsimp only
      split
      · split <;> simp
      · simp
  | init activeLevel | easyblink j nums pulse period | stop j =>
      unfold EbStep.acts
      dsimp only
      split <;> simp

theorem ebStep_now (hsound : s.Sound) (hi : i < ebLedNums) (x : EbStep) :
    s.now ≤ (x.exec s).val.now := by
  cases ebStep_of hsound hi x with
  | tick hstep =>
      rw [hstep, EbStep.exec, val_pure, tick_now]
      exact Nat.le_succ _
  | rest hacts hstill hlog => exact Nat.le_of_eq hstill.now.symm
  | change waitTick hdaemon hactive hticks hstep =>
      rw [hstep, EbStep.exec, daemonStep_due hdaemon hi hactive hticks]
      exact Nat.le_refl _
  | init activeLevel hfree hstep =>
      rw [hstep, EbStep.exec]
      obtain ⟨led, -, -, ⟨-, hval⟩ | ⟨-, hval⟩⟩ := initLed_cases hfree activeLevel
      · rw [hval]
        exact Nat.le_refl _
      · rw [hval]
        exact Nat.le_refl _
  | call nums pulse period hinit hstep =>
      rw [hstep, EbStep.exec, if_pos hinit]
      obtain ⟨-, htime⟩ := easyblink_lamp s i nums pulse period 0 0
      cases htime with
      | starts led hstate =>
          rw [hstate, semRelease_now]
          exact Nat.le_refl _
      | keeps led hstate =>
          rw [hstate]
          exact Nat.le_refl _
  | stop hinit hstep =>
      rw [hstep, EbStep.exec, if_pos hinit]
      exact Nat.le_refl _

theorem mem_trace_exec {acts : List (Nat × LampAct)} :
    ∀ w ∈ trace Lamp.exec l acts, ∃ a ∈ acts, w.1 = a.1 := by
  induction acts generalizing l with
  | nil => simp
  | cons a acts ih =>
      intro w hw
      rw [trace_cons, List.mem_append] at hw
      rcases hw with hw | hw
      · exact ⟨a, List.mem_cons_self, exec_time a w hw⟩
      · obtain ⟨a', ha', htime⟩ := ih w hw
        exact ⟨a', List.mem_cons_of_mem _ ha', htime⟩

theorem run_now {xs : List EbStep} (hsound : s.Sound) (hi : i < ebLedNums) :
    s.now ≤ (run (unlogged EbStep.exec) s xs).now := by
  induction xs generalizing s with
  | nil => exact Nat.le_refl _
  | cons x xs ih => exact Nat.le_trans (ebStep_now hsound hi x) (ih (ebStep_sound hsound x))

/-- Nothing happens ahead of the clock. -/
theorem trace_acts_time {xs : List EbStep} (hsound : s.Sound) (hi : i < ebLedNums) :
    ∀ a ∈ trace (acting EbStep.exec (EbStep.acts i)) s xs,
      a.1 ≤ (run (unlogged EbStep.exec) s xs).now := by
  induction xs generalizing s with
  | nil => simp
  | cons x xs ih =>
      intro a ha
      rw [trace_cons, List.mem_append] at ha
      rcases ha with ha | ha
      · rw [acts_time x a ha]
        exact run_now hsound hi
      · exact ih (ebStep_sound hsound x) a ha

end Clock

theorem getElem?_map_range' {α : Type} (f : Nat → α) {m k : Nat} {a : α} :
    ((List.range' 0 m).map f)[k]? = some a ↔ k < m ∧ a = f k := by
  rw [← List.range_eq_range', List.getElem?_map]
  rcases Nat.lt_or_ge k m with hless | hmore
  · rw [List.getElem?_range hless, Option.map_some, Option.some_inj]
    exact ⟨fun heq => ⟨hless, heq.symm⟩, fun heq => heq.2.symm⟩
  · rw [List.getElem?_eq_none (by simpa using hmore)]
    exact iff_of_false (by simp) fun heq => Nat.not_lt.mpr hmore heq.1

theorem KeepsTime.active {i : Nat} {s : EbState} {l : Lamp} (h : KeepsTime i s l)
    (hphase : l.phase ≠ .idle) : (s.leds i).active = true := by
  by_contra hidle
  rw [← h.lamp] at hphase
  exact hphase (if_neg hidle)

/-- The writes of a lamp that has begun and is left alone. -/
theorem begin_writes {i start : Nat} {s : EbState} {l : Lamp} {b : Blinking} {xs : List EbStep}
    (hsound : s.Sound) (hplan : s.Planned) (hkeeps : KeepsTime i s (l.begin start b))
    (h : OnSchedule i s (l.begin start b)) (hi : i < ebLedNums) (hinit : (s.leds i).init = true)
    (hwaiting : l.waiting = none) (hspared : ∀ x ∈ xs, x.Spares i)
    (hprompt : Meets EbStep.Prompt (unlogged EbStep.exec) s xs)
    (hwaits : (run (unlogged EbStep.exec) s xs).daemon.Waits) (k : Nat) (w : Nat × Bool) :
    (writesOf i (trace EbStep.exec s xs))[k]? = some w ↔
      b.Has k ∧ w = b.changeAt start k ∧ w.1 ≤ (run (unlogged EbStep.exec) s xs).now := by
  have hsteps := promptSteps_lamp hsound hplan hkeeps h hi hprompt
  obtain ⟨m, htrace, hall, hlast⟩ := changes_at (begin_at hwaiting)
    (trace_acts_spared hsound hi hinit hspared) hsteps.meets
  have hlog : writesOf i (trace EbStep.exec s xs) = (List.range' 0 m).map (b.changeAt start) :=
    hsteps.log.trans htrace
  rw [hlog, getElem?_map_range']
  constructor
  · rintro ⟨hk, rfl⟩
    have hmem := List.mem_range'_1.mpr ⟨Nat.zero_le k, (Nat.zero_add m).symm ▸ hk⟩
    obtain ⟨a, ha, htime⟩ := mem_trace_exec _ (htrace ▸ List.mem_map_of_mem hmem)
    exact ⟨hall k hmem, rfl, htime ▸ trace_acts_time hsound hi a ha⟩
  · rintro ⟨hhas, rfl, hnow⟩
    obtain ⟨⟨hsound', hplan'⟩, hkeeps', h'⟩ := hsteps.related
    refine ⟨Nat.zero_add m ▸ at_iff hlast (fun hmore => ?_) k hhas hnow, rfl⟩
    exact waits_before_due h' hsound' hplan' hi hwaits (hkeeps'.active hmore)

/-- A call for an LED that is idle and has not been left to flash for ever: whenever the
daemon waits, just those writes of its schedule have been made whose time has come,
whatever the other LED does. The run is a prompt one, with each visit as one step. -/
theorem easyblink_on_schedule (i : Fin ebLedNums) (before after : List EbStep) (nums : Int)
    (pulse period : Nat) (hle : pulse ≤ period) (hinit : ((ebRun before).leds i).init = true)
    (hidle : ((ebRun before).leds i).active = false)
    (hfinite : ((ebRun before).leds i).nums ≠ -1) (hspared : ∀ x ∈ after, x.Spares i)
    (hprompt : Meets EbStep.Prompt (unlogged EbStep.exec) .init
      (before ++ .easyblink i nums pulse period :: after))
    (hwaits : (ebRun (before ++ .easyblink i nums pulse period :: after)).daemon.Waits) :
    ∃ ws, ebWrites i (before ++ .easyblink i nums pulse period :: after) =
        ebWrites i before ++ ws ∧
      ∀ k w, ws[k]? = some w ↔
        Blinking.Has ⟨flashesOf nums, pulse, period - pulse⟩ k ∧
        w = Blinking.changeAt ⟨flashesOf nums, pulse, period - pulse⟩ (ebRun before).now k ∧
        w.1 ≤ (ebRun (before ++ .easyblink i nums pulse period :: after)).now := by
  obtain ⟨hbefore, hcall, hafter⟩ := (meets_append _ _).mp hprompt
  obtain ⟨hsound, hplan⟩ : (ebRun before).Sound ∧ (ebRun before).Planned :=
    (promptSteps_lamp init_sound trivial (init_keepsTime i) (.of_idle rfl) i.isLt hbefore).related.1
  obtain ⟨l, hkeeps, hphase, hwaiting, hflashes⟩ := ebRun_idle i.isLt hidle hfinite
  obtain ⟨hquiet, hrun, hbegin⟩ := easyblink_idle nums hkeeps hinit hphase hflashes hle
  have hschedule := (ebStep_onSchedule (.of_idle hidle) hsound hplan hkeeps i.isLt hcall).1
  rw [hrun] at hschedule
  rw [ebRun_append] at hwaits ⊢
  refine ⟨_, ebWrites_append hquiet, ?_⟩
  exact begin_writes (ebStep_sound hsound _) (ebStep_planned hsound hplan hcall) hbegin hschedule
    i.isLt (ebStep_init hsound i.isLt _ hinit) hwaiting hspared hafter hwaits

/-- The beeper sounds at once. -/
theorem easyblink_on_schedule_main :
    ∃ ws, ebWrites 1 (beforeBeep ++ .easyblink 1 2 50 200 :: untilWaits) =
        ebWrites 1 beforeBeep ++ ws ∧ ws[0]? = some (0, true) := by
  obtain ⟨ws, hws, htimes⟩ := easyblink_on_schedule ⟨1, by decide⟩ beforeBeep untilWaits 2 50 200
    (by decide) (by decide) (by decide) (by decide) (by simp [untilWaits, EbStep.Spares])
    (by decide +kernel) (by decide +kernel)
  refine ⟨ws, hws, (htimes 0 _).mpr ⟨?_, rfl, by decide +kernel⟩⟩
  rintro n ⟨⟩
  decide

end SmartCar
