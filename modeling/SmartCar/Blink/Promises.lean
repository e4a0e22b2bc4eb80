import SmartCar.Blink.Lamp
import SmartCar.Blink.Visits

/-!
# Promises

The ticks of a record say when its LED will be due, counted from the time up to which
the daemon has subtracted. No step but a tick and the LED's own moves this time, and
a tick only moves it on.
-/

namespace SmartCar

open Imperative Logged

/-! ## What happens to one LED -/

/-- What a step does to the lamp of LED `i`. -/
def EbStep.acts (i : Nat) (x : EbStep) (s : EbState) : List (Nat × LampAct) :=
  match x with
  | tick => []
  | daemon =>
      match s.daemon with
      | .pass waitTick j =>
          if j = i ∧ i < ebLedNums ∧ (s.leds i).active ∧ (s.leds i).ticks - waitTick ≤ 0 then
            [(s.now, .change)]
          else []
      | _ => []
  | init activeLevel =>
      if s.freeLed = some i then [(s.now, .init (decide (activeLevel = .low)))] else []
  | easyblink j nums pulse period =>
      if j = i ∧ (s.leds i).init then [(s.now, .call nums pulse period)] else []
  | stop j => if j = i ∧ (s.leds i).init then [(s.now, .stop)] else []

/-- A write to the pin of LED `i`. -/
def EbWrite.ofLed (i : Nat) (w : EbWrite) : Option (Nat × Bool) :=
  if w.led = i then some (w.now, w.lit) else none

def writesOf (i : Nat) (log : List EbWrite) : List (Nat × Bool) := log.filterMap (EbWrite.ofLed i)

/-- The state after the steps `xs`. -/
def ebRun (xs : List EbStep) : EbState := run (unlogged EbStep.exec) .init xs

/-- All that happens to the lamp of LED `i`. -/
def lampActs (i : Nat) (xs : List EbStep) : List (Nat × LampAct) :=
  trace (acting EbStep.exec (EbStep.acts i)) .init xs

/-- The writes to the pin of LED `i` in the steps `xs`. -/
def ebWrites (i : Nat) (xs : List EbStep) : List (Nat × Bool) :=
  writesOf i (trace EbStep.exec .init xs)

/-! ## The time that a record promises -/

namespace EbState

/-- What the daemon has still to subtract from the ticks of LED `i`, as far as time has
passed. -/
def pending (i : Nat) (s : EbState) : Nat :=
  match s.daemon with
  | .take _ tick | .woken tick => if (s.leds i).correct then 0 else s.now - tick
  | .blocked _ tick _ => s.now - tick
  | .least (some elapsed) j _ => if j ≤ i ∧ (s.leds i).correct = false then elapsed else 0
  | .pass waitTick j => if j ≤ i then waitTick else 0
  | _ => 0

/-- The time at which LED `i` will be found due. -/
def promise (i : Nat) (s : EbState) : Int := s.now + (s.leds i).ticks - s.pending i

/-- The daemon will correct the ticks before it waits. -/
def Signalled (i : Nat) (s : EbState) : Prop :=
  0 < s.value ∨
    match s.daemon with
    | .woken _ => True
    | .least (some _) j _ => j ≤ i
    | _ => False

/-- The tick that the daemon has read is past, and its timer does not fire too early. -/
def Timed (s : EbState) : Prop :=
  match s.daemon with
  | .take _ tick | .woken tick => tick ≤ s.now
  | .blocked waitTick tick timeout => tick ≤ s.now ∧ tick + waitTick ≤ timeout ∧ s.value = 0
  | _ => True

structure Sound (s : EbState) : Prop where
  timed : s.Timed
  signalled : ∀ i < ebLedNums, (s.leds i).active = true → (s.leds i).correct = true →
    s.Signalled i
  started : s.daemon = .absent → ∀ i, (s.leds i).init = false
  called : ∀ i, (s.leds i).active = true → (s.leds i).init = true

end EbState

/-- A step that leaves LED `i` and its promise as they are. -/
structure Still (i : Nat) (s s' : EbState) : Prop where
  led : ∃ ticks correct, s'.leds i = { s.leds i with ticks, correct }
  promise : (s.leds i).active = true → s'.promise i = s.promise i
  now : s'.now = s.now

section Steps

variable {i j : Nat} {s : EbState} {due earliest : Nat} {led : EbLed}

theorem writesOf_own {log : List EbWrite} (hown : ∀ w ∈ log, w.led = i) :
    writesOf i log = log.map fun w => (w.now, w.lit) := by
  rw [writesOf, ← List.filterMap_eq_map]
  exact List.filterMap_congr fun w hw => if_pos (hown w hw)

theorem writesOf_other {log : List EbWrite} (hne : j ≠ i) (hown : ∀ w ∈ log, w.led = j) :
    writesOf i log = [] := by
  rw [writesOf, List.filterMap_eq_nil_iff]
  intro w hw
  rw [EbWrite.ofLed, hown w hw, if_neg hne]

theorem Still.active {s' : EbState} (h : Still i s s') :
    (s'.leds i).active = (s.leds i).active := by
  obtain ⟨ticks, correct, hled⟩ := h.led
  rw [hled]

theorem Still.init {s' : EbState} (h : Still i s s') : (s'.leds i).init = (s.leds i).init := by
  obtain ⟨ticks, correct, hled⟩ := h.led
  rw [hled]

theorem Still.lamp {s' : EbState} (h : Still i s s') (due earliest : Nat) :
    (s'.leds i).lamp due earliest = (s.leds i).lamp due earliest := by
  obtain ⟨ticks, correct, hled⟩ := h.led
  rw [hled]
  rfl

theorem correctTicks_led (elapsed : Option Nat) (led : EbLed) :
    ∃ ticks correct, led.correctTicks elapsed = { led with ticks, correct } := by
  unfold EbLed.correctTicks
  split
  · exact ⟨led.ticks, led.correct, rfl⟩
  · split
    · split
      · exact ⟨led.ticks, false, rfl⟩
      · exact ⟨_, led.correct, rfl⟩
    · exact ⟨led.ticks, led.correct, rfl⟩

/-- An LED with a mark has been called since the daemon last looked. -/
theorem EbState.Sound.not_correct (h : s.Sound) (hi : i < ebLedNums)
    (hactive : (s.leds i).active = true) (hnot : ¬ s.Signalled i) : (s.leds i).correct = false := by
  by_contra hcorrect
  exact hnot (h.signalled i hi hactive (Bool.not_eq_false _ ▸ hcorrect))

theorem semRelease_now (s : EbState) : s.semRelease.now = s.now := by
  unfold EbState.semRelease
  split
  · rfl
  · split <;> rfl

/-- Releasing the semaphore. -/
theorem semRelease_still (h : s.Sound) (hi : i < ebLedNums) : Still i s s.semRelease := by
  refine ⟨⟨(s.leds i).ticks, (s.leds i).correct, by rw [semRelease_leds]⟩, fun hactive => ?_,
    semRelease_now s⟩
  unfold EbState.semRelease
  split
  next waitTick tick timeout hdaemon =>
    have htimed := h.timed
    rw [EbState.Timed, hdaemon] at htimed
    have hvalue : s.value = 0 := htimed.2.2
    have hcorrect := h.not_correct hi hactive (by simp [EbState.Signalled, hvalue, hdaemon])
    simp [EbState.promise, EbState.pending, hdaemon, hcorrect]
  · split <;> rfl

theorem correctTicks_active (elapsed : Option Nat) (led : EbLed) :
    (led.correctTicks elapsed).active = led.active := by
  obtain ⟨ticks, correct, hled⟩ := correctTicks_led elapsed led
  rw [hled]

/-- A step of the daemon that leaves the records alone. -/
theorem Still.of_leds {s' : EbState} (hleds : s'.leds = s.leds) (hnow : s'.now = s.now)
    (hpending : (s.leds i).active = true → s'.pending i = s.pending i) : Still i s s' := by
  refine ⟨⟨(s.leds i).ticks, (s.leds i).correct, by rw [hleds]⟩, fun hactive => ?_, hnow⟩
  rw [EbState.promise, EbState.promise, hleds, hnow, hpending hactive]

theorem least_still {elapsed : Option Nat} {tickMin tickMin' : Int}
    (hdaemon : s.daemon = .least elapsed j tickMin) : Still i s
      { s.setLed j ((s.leds j).correctTicks elapsed) with
        daemon := .least elapsed (j + 1) tickMin' } := by
  rcases eq_or_ne i j with rfl | hne
  · refine ⟨?_, fun hactive => ?_, rfl⟩
    · dsimp only
      rw [setLed_same]
      exact correctTicks_led elapsed _
    · have hnext : ¬ i + 1 ≤ i := Nat.not_succ_le_self i
      cases elapsed with
      | none => simp [EbState.promise, EbState.pending, hdaemon, EbState.setLed, EbLed.correctTicks]
      | some elapsed =>
          cases hcorrect : (s.leds i).correct with
          | true => simp [EbState.promise, EbState.pending, hdaemon, EbState.setLed,
              EbLed.correctTicks, hactive, hcorrect, hnext]
          | false =>
              simp [EbState.promise, EbState.pending, hdaemon, EbState.setLed,
                EbLed.correctTicks, hactive, hcorrect, hnext]
              omega
  · refine ⟨⟨(s.leds i).ticks, (s.leds i).correct, setLed_of_ne hne⟩, fun hactive => ?_, rfl⟩
    · have hnext : j + 1 ≤ i ↔ j ≤ i := by omega
      cases elapsed with
      | none => simp [EbState.promise, EbState.pending, hdaemon, EbState.setLed, hne]
      | some elapsed =>
          simp [EbState.promise, EbState.pending, hdaemon, EbState.setLed, hne, hnext]

theorem visit_rest {now waitTick : Nat} (hrest : ¬ (led.active = true ∧ led.ticks - waitTick ≤ 0)) :
    led.visit now i waitTick = pure (led.subTicks waitTick) := by
  unfold EbLed.visit
  exact if_neg hrest

theorem pass_still {waitTick : Nat} (hdaemon : s.daemon = .pass waitTick j)
    (hrest : i = j → ¬ ((s.leds i).active = true ∧ (s.leds i).ticks - waitTick ≤ 0)) : Still i s
      { s.setLed j ((s.leds j).visit s.now j waitTick).val with
        daemon := .pass waitTick (j + 1) } := by
  rcases eq_or_ne i j with rfl | hne
  · rw [visit_rest (hrest rfl)]
    have hnext : ¬ i + 1 ≤ i := Nat.not_succ_le_self i
    refine ⟨⟨(s.leds i).ticks - waitTick, (s.leds i).correct, setLed_same⟩, fun hactive => ?_, rfl⟩
    · simp [EbState.promise, EbState.pending, hdaemon, EbState.setLed, EbLed.subTicks, hnext]
      omega
  · refine ⟨⟨(s.leds i).ticks, (s.leds i).correct, setLed_of_ne hne⟩, fun hactive => ?_, rfl⟩
    · have hnext : j + 1 ≤ i ↔ j ≤ i := by omega
      simp [EbState.promise, EbState.pending, hdaemon, EbState.setLed, hne, hnext]

/-- The visits at which an LED is not due. -/
theorem not_due {waitTick : Nat} (hdaemon : s.daemon = .pass waitTick i) (hi : i < ebLedNums)
    (hrest : EbStep.daemon.acts i s = []) :
    ¬ ((s.leds i).active = true ∧ (s.leds i).ticks - waitTick ≤ 0) := by
  intro hdue
  simp [EbStep.acts, hdaemon, hi, hdue] at hrest

/-- The steps of the daemon at which LED `i` is not due. -/
theorem daemonStep_still (h : s.Sound) (hi : i < ebLedNums)
    (hrest : EbStep.daemon.acts i s = []) : Still i s s.daemonStep.val := by
  unfold EbState.daemonStep
  cases hdaemon : s.daemon with
  | absent => exact Still.of_leds rfl rfl fun _ => rfl
  | loop => exact Still.of_leds rfl rfl fun _ => by simp [EbState.pending, hdaemon]
  | least elapsed j tickMin =>
      dsimp only
      split
      · exact least_still hdaemon
      next hj =>
        refine Still.of_leds rfl rfl fun _ => ?_
        have hlast : ¬ j ≤ i := by omega
        cases elapsed with
        | none => simp [EbState.pending, hdaemon]
        | some elapsed => simp [EbState.pending, hdaemon, hlast]
  | wait waitTick =>
      refine Still.of_leds rfl rfl fun _ => ?_
      by_cases hwait : waitTick = 0
      · simp [EbState.pending, hdaemon, hwait]
      · simp [EbState.pending, hdaemon, hwait]
  | take waitTick tick =>
      dsimp only
      split
      · exact Still.of_leds rfl rfl fun _ => by simp [EbState.pending, hdaemon]
      next hvalue =>
        refine Still.of_leds rfl rfl fun hactive => ?_
        have hcorrect := h.not_correct hi hactive (by simp [EbState.Signalled, hvalue, hdaemon])
        simp [EbState.pending, hdaemon, hcorrect]
  | blocked waitTick tick timeout => exact Still.of_leds rfl rfl fun _ => rfl
  | woken tick =>
      refine Still.of_leds rfl rfl fun _ => ?_
      cases hcorrect : (s.leds i).correct with
      | true => simp [EbState.pending, hdaemon, hcorrect]
      | false => simp [EbState.pending, hdaemon, hcorrect]
  | pass waitTick j =>
      dsimp only
      split
      next hj =>
        refine pass_still hdaemon ?_
        rintro rfl
        exact not_due hdaemon hi hrest
      next hj =>
        refine Still.of_leds rfl rfl fun _ => ?_
        have hlast : ¬ j ≤ i := by omega
        simp [EbState.pending, hdaemon, hlast]

theorem setLed_still (hne : i ≠ j) : Still i s (s.setLed j led) := by
  refine ⟨⟨(s.leds i).ticks, (s.leds i).correct, setLed_of_ne hne⟩, fun _ => ?_, rfl⟩
  simp [EbState.promise, EbState.pending, EbState.setLed, hne]

theorem Still.trans {s' s'' : EbState} (h : Still i s s') (h' : Still i s' s'') :
    Still i s s'' := by
  obtain ⟨_, _, hled⟩ := h.led
  obtain ⟨ticks, correct, hled'⟩ := h'.led
  refine ⟨⟨ticks, correct, ?_⟩, fun hactive => ?_, h'.now.trans h.now⟩
  · rw [hled', hled]
  · rw [h'.promise (h.active.trans hactive), h.promise hactive]

theorem semRelease_setLed : (s.setLed j led).semRelease = s.semRelease.setLed j led := by
  obtain ⟨now, value, leds, daemon⟩ := s
  unfold EbState.semRelease EbState.setLed
  cases daemon with
  | blocked waitTick tick timeout => rfl
  | absent | loop | least | wait | take | woken | pass =>
      dsimp only
      split <;> rfl

/-- A call for another LED. -/
theorem easyblink_still (h : s.Sound) (hi : i < ebLedNums) (hne : i ≠ j) (nums : Int)
    (pulse period : Nat) : Still i s (s.easyblink j nums pulse period).val := by
  have hrelease := semRelease_still h hi
  unfold EbState.easyblink
  dsimp only
  split
  · split
    · rw [val_bind, val_pure, semRelease_setLed]
      exact hrelease.trans (setLed_still hne)
    · split
      · exact setLed_still hne
      · rw [val_pure, semRelease_setLed]
        exact hrelease.trans (setLed_still hne)
  · exact Still.of_leds rfl rfl fun _ => rfl

theorem easyblinkStop_still (hne : i ≠ j) : Still i s (s.easyblinkStop j).val := setLed_still hne

/-- What an interrupt of the tick does. -/
theorem tick_cases (s : EbState) :
    (∃ waitTick tick timeout, s.daemon = .blocked waitTick tick timeout ∧ timeout ≤ s.now + 1 ∧
      s.rtTickIncrease = { s with now := s.now + 1, daemon := .pass waitTick 0 }) ∨
    ((∀ waitTick tick timeout, s.daemon = .blocked waitTick tick timeout → s.now + 1 < timeout) ∧
      s.rtTickIncrease = { s with now := s.now + 1 }) := by
  obtain ⟨now, value, leds, daemon⟩ := s
  unfold EbState.rtTickIncrease
  cases daemon with
  | blocked waitTick tick timeout =>
      by_cases htimeout : timeout ≤ now + 1
      · exact .inl ⟨waitTick, tick, timeout, rfl, htimeout, if_pos htimeout⟩
      · refine .inr ⟨?_, if_neg htimeout⟩
        rintro _ _ _ ⟨⟩
        exact Nat.not_le.mp htimeout
  | absent | loop | least | wait | take | woken | pass => exact .inr ⟨by simp, rfl⟩

/-- Time passes: the promise stays or moves on. -/
theorem tick_promise (h : s.Sound) (i : Nat) : s.promise i ≤ s.rtTickIncrease.promise i := by
  have htimed := h.timed
  unfold EbState.Timed at htimed
  obtain ⟨waitTick, tick, timeout, hdaemon, hfires, htick⟩ | ⟨-, htick⟩ := tick_cases s
  · rw [hdaemon] at htimed
    obtain ⟨hpast, htimeout, -⟩ := htimed
    rw [htick]
    simp only [EbState.promise, EbState.pending, hdaemon, Nat.zero_le, if_true]
    omega
  · rw [htick]
    cases hdaemon : s.daemon with
    | blocked waitTick tick timeout =>
        rw [hdaemon] at htimed
        simp only [EbState.promise, EbState.pending, hdaemon]
        omega
    | take waitTick tick | woken tick =>
        rw [hdaemon] at htimed
        simp only [EbState.promise, EbState.pending, hdaemon]
        split
        · omega
        · omega
    | absent | loop | wait | pass =>
        simp only [EbState.promise, EbState.pending, hdaemon]
        omega
    | least elapsed j tickMin =>
        cases elapsed with
        | none | some elapsed =>
            simp only [EbState.promise, EbState.pending, hdaemon]
            omega

end Steps

/-! ## Every step keeps the marks -/

section Marks

variable {i j : Nat} {s s' : EbState} {led : EbLed}

/-- A step that leaves the records alone. -/
theorem EbState.Sound.of_leds (h : s.Sound) (hleds : s'.leds = s.leds) (htimed : s'.Timed)
    (hsignal : ∀ i < ebLedNums, (s.leds i).active = true → (s.leds i).correct = true →
      s.Signalled i → s'.Signalled i)
    (hstarted : s'.daemon = .absent → s.daemon = .absent) : s'.Sound where
  timed := htimed
  signalled := by
    intro i hi hactive hcorrect
    rw [hleds] at hactive hcorrect
    exact hsignal i hi hactive hcorrect (h.signalled i hi hactive hcorrect)
  started := by
    rw [hleds]
    exact fun habsent => h.started (hstarted habsent)
  called := by
    rw [hleds]
    exact h.called

/-- A step of the daemon that changes one record. -/
theorem EbState.Sound.visit (h : s.Sound) (daemon : EbDaemon) (htimed : ∀ leds,
      EbState.Timed { s with leds, daemon })
    (hled : led.active = true → (s.leds j).active = true)
    (hinit : led.init = (s.leds j).init)
    (hself : led.active = true → led.correct = true → j < ebLedNums →
      EbState.Signalled j { s.setLed j led with daemon })
    (hothers : ∀ i < ebLedNums, i ≠ j → s.Signalled i →
      EbState.Signalled i { s.setLed j led with daemon })
    (hdaemon : daemon ≠ .absent) : EbState.Sound { s.setLed j led with daemon } where
  timed := htimed _
  signalled := by
    intro i hi hactive hcorrect
    rcases eq_or_ne i j with rfl | hne
    · rw [setLed_same] at hactive hcorrect
      exact hself hactive hcorrect hi
    · rw [setLed_of_ne hne] at hactive hcorrect
      exact hothers i hi hne (h.signalled i hi hactive hcorrect)
  started := fun habsent => absurd habsent hdaemon
  called := by
    intro i hactive
    rcases eq_or_ne i j with rfl | hne
    · rw [setLed_same] at hactive ⊢
      rw [hinit]
      exact h.called i (hled hactive)
    · rw [setLed_of_ne hne] at hactive ⊢
      exact h.called i hactive

theorem tick_sound (h : s.Sound) : s.rtTickIncrease.Sound := by
  have htimed := h.timed
  unfold EbState.Timed at htimed
  obtain ⟨waitTick, tick, timeout, hdaemon, -, htick⟩ | ⟨-, htick⟩ := tick_cases s
  · rw [hdaemon] at htimed
    obtain ⟨-, -, hvalue⟩ := htimed
    rw [htick]
    refine h.of_leds rfl trivial ?_ (by simp)
    intro i _ _ _ hsignal
    simp [EbState.Signalled, hdaemon, hvalue] at hsignal
  · rw [htick]
    refine h.of_leds rfl ?_ (fun _ _ _ _ hsignal => hsignal) id
    unfold EbState.Timed
    dsimp only
    cases hdaemon : s.daemon with
    | blocked waitTick tick timeout =>
        rw [hdaemon] at htimed
        exact ⟨Nat.le_succ_of_le htimed.1, htimed.2⟩
    | take waitTick tick | woken tick =>
        rw [hdaemon] at htimed
        exact Nat.le_succ_of_le htimed
    | absent | loop | wait | pass | least => trivial

theorem correctTicks_init (elapsed : Option Nat) (led : EbLed) :
    (led.correctTicks elapsed).init = led.init := by
  unfold EbLed.correctTicks
  split
  · rfl
  · split
    · split <;> rfl
    · rfl

/-- The mark of an active LED is cleared. -/
theorem correctTicks_correct {elapsed : Nat} (hactive : led.active = true) :
    (led.correctTicks (some elapsed)).correct = false := by
  unfold EbLed.correctTicks
  dsimp only
  rw [if_pos hactive]
  split
  · rfl
  next hcorrect => simpa using hcorrect

/-- What a visit leaves as it is. -/
theorem visit_keeps (now i waitTick : Nat) (led : EbLed) :
    (led.visit now i waitTick).val.correct = led.correct ∧
      (led.visit now i waitTick).val.init = led.init ∧
      ((led.visit now i waitTick).val.active = true → led.active = true) := by
  unfold EbLed.visit EbLed.switch
  dsimp only
  split
  next hdue =>
    refine ⟨?_, ?_, fun _ => hdue.1⟩
    · split
      · split
        · rfl
        · split <;> rfl
      · rfl
    · split
      · split
        · rfl
        · split <;> rfl
      · rfl
  · exact ⟨rfl, rfl, id⟩

theorem daemonStep_sound (h : s.Sound) : s.daemonStep.val.Sound := by
  have htimed := h.timed
  unfold EbState.daemonStep
  unfold EbState.Timed at htimed
  cases hdaemon : s.daemon with
  | absent | blocked => exact h
  | loop =>
      refine h.of_leds rfl trivial ?_ (by simp)
      intro i _ _ _ hsignal
      simpa [EbState.Signalled, hdaemon] using hsignal
  | least elapsed j tickMin =>
      dsimp only
      split
      next hj =>
        refine h.visit _ (fun _ => trivial) ?_ ?_ ?_ ?_ (by simp)
        · rw [correctTicks_active]
          exact id
        · exact correctTicks_init ..
        · intro hactive hcorrect _
          rw [correctTicks_active] at hactive
          cases elapsed with
          | none => simpa [EbState.Signalled, hdaemon] using h.signalled j hj hactive hcorrect
          | some elapsed => simp [correctTicks_correct hactive] at hcorrect
        · intro i _ hne hsignal
          cases elapsed with
          | none => simpa [EbState.Signalled, hdaemon] using hsignal
          | some elapsed =>
              simp only [EbState.Signalled, hdaemon] at hsignal ⊢
              exact hsignal.imp_right fun hle => by omega
      next hj =>
        refine h.of_leds rfl trivial ?_ (by simp)
        intro i hi _ _ hsignal
        have hlast : ¬ j ≤ i := by omega
        cases elapsed with
        | none => simpa [EbState.Signalled, hdaemon] using hsignal
        | some elapsed => simpa [EbState.Signalled, hdaemon, hlast] using hsignal
  | wait waitTick =>
      by_cases hwait : waitTick = 0
      · refine h.of_leds rfl ?_ ?_ ?_
        · simp [EbState.Timed, hwait]
        · intro i _ _ _ hsignal
          simpa [EbState.Signalled, hdaemon, hwait] using hsignal
        · simp [hwait]
      · refine h.of_leds rfl ?_ ?_ ?_
        · simp [EbState.Timed, hwait]
        · intro i _ _ _ hsignal
          simpa [EbState.Signalled, hdaemon, hwait] using hsignal
        · simp [hwait]
  | take waitTick tick =>
      rw [hdaemon] at htimed
      dsimp only
      split
      · exact h.of_leds rfl htimed (fun i _ _ _ _ => .inr trivial) (by simp)
      next hvalue =>
        refine h.of_leds rfl ?_ ?_ (by simp)
        · exact ⟨htimed, Nat.add_le_add_right htimed _, by simpa using hvalue⟩
        · intro i _ _ _ hsignal
          simp [EbState.Signalled, hdaemon, hvalue] at hsignal
  | woken tick =>
      exact h.of_leds rfl trivial (fun i _ _ _ _ => .inr (Nat.zero_le i)) (by simp)
  | pass waitTick j =>
      dsimp only
      split
      next hj =>
        obtain ⟨hcorrect, hinit, hactive⟩ := visit_keeps s.now j waitTick (s.leds j)
        refine h.visit _ (fun _ => trivial) hactive hinit ?_ ?_ (by simp)
        · intro hon hmark _
          rw [hcorrect] at hmark
          simpa [EbState.Signalled, hdaemon] using h.signalled j hj (hactive hon) hmark
        · intro i _ _ hsignal
          simpa [EbState.Signalled, hdaemon] using hsignal
      next hj =>
        refine h.of_leds rfl trivial ?_ (by simp)
        intro i _ _ _ hsignal
        simpa [EbState.Signalled, hdaemon] using hsignal

/-- After a release nobody who is marked can be forgotten. -/
theorem semRelease_signalled (s : EbState) (i : Nat) : s.semRelease.Signalled i := by
  unfold EbState.semRelease
  split
  · exact .inr trivial
  · refine .inl ?_
    split
    next hlt => exact Nat.succ_pos _
    next hfull =>
      rw [rtSemValueMax] at hfull
      omega

theorem semRelease_timed (h : s.Timed) : s.semRelease.Timed := by
  unfold EbState.semRelease
  unfold EbState.Timed at h
  split
  next waitTick tick timeout hdaemon =>
    rw [hdaemon] at h
    exact h.1
  next hnot =>
    have hkeep : ∀ value, EbState.Timed { s with value } := by
      intro value
      unfold EbState.Timed
      dsimp only
      cases hdaemon : s.daemon with
      | blocked waitTick tick timeout => exact absurd hdaemon (hnot _ _ _)
      | take waitTick tick | woken tick =>
          rw [hdaemon] at h
          exact h
      | absent | loop | wait | pass | least => trivial
    split
    · exact hkeep _
    · exact hkeep _

theorem semRelease_absent (h : s.semRelease.daemon = .absent) : s.daemon = .absent := by
  unfold EbState.semRelease at h
  split at h
  · cases h
  · split at h <;> exact h

/-- A call that changes the record of an LED and releases the semaphore. -/
theorem EbState.Sound.release (h : s.Sound) (hinit : (s.leds j).init = true)
    (hled : led.init = true) : (s.setLed j led).semRelease.Sound where
  timed := semRelease_timed h.timed
  signalled := fun i _ _ _ => semRelease_signalled _ i
  started := by
    intro habsent
    have hidle := semRelease_absent habsent
    rw [setLed_daemon] at hidle
    simp [h.started hidle j] at hinit
  called := by
    intro i hactive
    rw [semRelease_leds] at hactive ⊢
    rcases eq_or_ne i j with rfl | hne
    · rw [setLed_same]
      exact hled
    · rw [setLed_of_ne hne] at hactive ⊢
      exact h.called i hactive

theorem easyblink_sound (h : s.Sound) (hinit : (s.leds j).init = true) (nums : Int)
    (pulse period : Nat) : (s.easyblink j nums pulse period).val.Sound := by
  unfold EbState.easyblink
  dsimp only
  split
  · split
    · exact h.release hinit hinit
    · split
      next hactive =>
        refine h.visit s.daemon ?_ (fun _ => hactive) rfl ?_ ?_ ?_
        · exact fun _ => h.timed
        · exact fun _ hcorrect hj => h.signalled j hj hactive hcorrect
        · exact fun _ _ _ hsignal => hsignal
        · intro habsent
          simp [h.started habsent j] at hinit
      · exact h.release hinit hinit
  · exact h

/-- A call that leaves an LED idle. -/
theorem EbState.Sound.idle (h : s.Sound) (daemon : EbDaemon) (value : Nat)
    (hled : led.active = false) (htimed : ∀ leds, EbState.Timed { s with leds, daemon, value })
    (hsignal : ∀ i < ebLedNums, (s.leds i).active = true → s.Signalled i →
      EbState.Signalled i { s.setLed j led with daemon, value })
    (hdaemon : daemon ≠ .absent) : EbState.Sound { s.setLed j led with daemon, value } where
  timed := htimed _
  signalled := by
    intro i hi hactive hcorrect
    rcases eq_or_ne i j with rfl | hne
    · rw [setLed_same, hled] at hactive
      cases hactive
    · rw [setLed_of_ne hne] at hactive hcorrect
      exact hsignal i hi hactive (h.signalled i hi hactive hcorrect)
  started := fun habsent => absurd habsent hdaemon
  called := by
    intro i hactive
    rcases eq_or_ne i j with rfl | hne
    · rw [setLed_same, hled] at hactive
      cases hactive
    · rw [setLed_of_ne hne] at hactive ⊢
      exact h.called i hactive

theorem easyblinkStop_sound (h : s.Sound) (hinit : (s.leds j).init = true) :
    (s.easyblinkStop j).val.Sound := by
  refine h.idle s.daemon s.value rfl (fun _ => h.timed)
    (fun _ _ _ hsignal => hsignal) ?_
  intro habsent
  simp [h.started habsent j] at hinit

theorem freeLed_spec (hfree : s.freeLed = some i) : i < ebLedNums ∧ (s.leds i).init = false := by
  have hmem := List.mem_of_find?_eq_some hfree
  have hinit := List.find?_some hfree
  exact ⟨List.mem_range.mp hmem, by simpa using hinit⟩

/-- An LED that has not been initialised is idle. -/
theorem EbState.Sound.idle_of_free (h : s.Sound) (hfree : s.freeLed = some i) :
    (s.leds i).active = false := by
  by_contra hon
  have hcalled := h.called i (Bool.not_eq_false _ ▸ hon)
  rw [(freeLed_spec hfree).2] at hcalled
  cases hcalled

/-- What the initialisation of a free LED does. -/
theorem initLed_cases (hfree : s.freeLed = some i) (activeLevel : PinLevel) :
    ∃ led : EbLed, led.active = (s.leds i).active ∧ led.init = true ∧
      (s.daemon ≠ .absent ∧ (s.initLed activeLevel).val = s.setLed i led ∨
        s.daemon = .absent ∧ (s.initLed activeLevel).val =
          { s.setLed i led with daemon := .loop, value := 0 }) := by
  refine ⟨{ { s.leds i with init := true, activeLevel }.off with pin := .low }, rfl, rfl, ?_⟩
  unfold EbState.initLed
  rw [hfree]
  dsimp only
  rw [val_bind, val_bind, val_pure, EbState.setLed_daemon]
  by_cases habsent : s.daemon = .absent
  · exact .inr ⟨habsent, if_pos habsent⟩
  · exact .inl ⟨habsent, if_neg habsent⟩

theorem initLed_sound (h : s.Sound) (activeLevel : PinLevel) :
    (s.initLed activeLevel).val.Sound := by
  cases hfree : s.freeLed with
  | none =>
      rw [EbState.initLed, hfree]
      exact h
  | some i =>
      obtain ⟨led, hactive, -, ⟨hdaemon, hval⟩ | ⟨habsent, hval⟩⟩ := initLed_cases hfree activeLevel
      · rw [hval]
        rw [h.idle_of_free hfree] at hactive
        exact h.idle s.daemon s.value hactive (fun _ => h.timed) (fun _ _ _ hsignal => hsignal)
          hdaemon
      · rw [hval]
        rw [h.idle_of_free hfree] at hactive
        refine h.idle _ _ hactive (fun _ => trivial) ?_ (by simp)
        intro j _ hon _
        have hcalled := h.called j hon
        rw [h.started habsent j] at hcalled
        cases hcalled

end Marks

end SmartCar
