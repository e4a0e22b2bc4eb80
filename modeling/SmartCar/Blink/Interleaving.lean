import SmartCar.Blink.Promises

/-!
# LEDs in any interleaving

Whenever calls come, if not in a visit, and however late the daemon is: each LED goes
through what the lamp of its own calls goes through, and no change comes before it is
due.
-/

namespace SmartCar

open Imperative Logged

/-! ## What a step is for one LED -/

/-- A step leaves LED `i` as it is, or it is one of its own. -/
inductive StepOf (i : Nat) (s : EbState) (x : EbStep) : Prop
  | tick (step : x = .tick)
  | rest (acts : x.acts i s = []) (still : Still i s (x.exec s).val)
      (log : writesOf i (x.exec s).log = [])
  | change (waitTick : Nat) (daemon : s.daemon = .pass waitTick i)
      (active : (s.leds i).active = true) (ticks : (s.leds i).ticks - waitTick ≤ 0)
      (step : x = .daemon)
  | init (activeLevel : PinLevel) (free : s.freeLed = some i) (step : x = .init activeLevel)
  | call (nums : Int) (pulse period : Nat) (init : (s.leds i).init = true)
      (step : x = .easyblink i nums pulse period)
  | stop (init : (s.leds i).init = true) (step : x = .stop i)

section Own

variable {i : Nat} {s : EbState} {x : EbStep}

/-- The LED that is due. -/
theorem acts_daemon (hacts : EbStep.daemon.acts i s ≠ []) : ∃ waitTick,
    s.daemon = .pass waitTick i ∧ (s.leds i).active = true ∧ (s.leds i).ticks - waitTick ≤ 0 := by
  unfold EbStep.acts at hacts
  cases hdaemon : s.daemon with
  | pass waitTick j =>
      simp only [hdaemon] at hacts
      split at hacts
      next hdue =>
        obtain ⟨rfl, -, hactive, hticks⟩ := hdue
        exact ⟨waitTick, rfl, hactive, hticks⟩
      · exact absurd rfl hacts
  | absent | loop | least | wait | take | blocked | woken => simp [hdaemon] at hacts

theorem visit_due {now waitTick : Nat} {led : EbLed} (hactive : led.active = true)
    (hdue : led.ticks - waitTick ≤ 0) :
    led.visit now i waitTick = (led.subTicks waitTick).switch now i :=
  if_pos ⟨hactive, hdue⟩

theorem visit_own (now i waitTick : Nat) (led : EbLed) :
    ∀ w ∈ (led.visit now i waitTick).log, w.led = i := by
  by_cases hdue : led.active = true ∧ led.ticks - waitTick ≤ 0
  · rw [visit_due hdue.1 hdue.2]
    exact (switch_lamp (led.subTicks waitTick) now i 0 0 hdue.1).own
  · rw [visit_rest hdue]
    simp

theorem daemonStep_log (hrest : EbStep.daemon.acts i s = []) :
    writesOf i s.daemonStep.log = [] := by
  unfold EbState.daemonStep
  cases hdaemon : s.daemon with
  | absent | loop | wait | blocked | woken => rfl
  | least elapsed j tickMin =>
      dsimp only
      split <;> rfl
  | take waitTick tick =>
      dsimp only
      split <;> rfl
  | pass waitTick j =>
      dsimp only
      split
      next hj =>
        rw [log_bind, log_pure, List.append_nil]
        rcases eq_or_ne j i with rfl | hne
        · rw [visit_rest (not_due hdaemon hj hrest)]
          rfl
        · exact writesOf_other hne (visit_own s.now j waitTick _)
      · rfl

/-- Another LED is initialised. -/
theorem initLed_still {j : Nat} (hfree : s.freeLed = some j) (hne : i ≠ j)
    (activeLevel : PinLevel) : Still i s (s.initLed activeLevel).val := by
  obtain ⟨led, -, -, ⟨-, hval⟩ | ⟨habsent, hval⟩⟩ := initLed_cases hfree activeLevel
  · rw [hval]
    exact setLed_still hne
  · rw [hval]
    have hset : Still i s (s.setLed j led) := setLed_still hne
    refine hset.trans (Still.of_leds rfl rfl fun _ => ?_)
    simp [EbState.pending, habsent]

/-- A step that does nothing. -/
theorem StepOf.none (hacts : x.acts i s = []) (hexec : x.exec s = pure s) : StepOf i s x := by
  refine .rest hacts ?_ ?_
  · rw [hexec]
    exact Still.of_leds rfl rfl fun _ => rfl
  · rw [hexec]
    rfl

theorem ebStep_of (h : s.Sound) (hi : i < ebLedNums) (x : EbStep) : StepOf i s x := by
  cases x with
  | tick => exact .tick rfl
  | daemon =>
      by_cases hacts : EbStep.daemon.acts i s = []
      · exact .rest hacts (daemonStep_still h hi hacts) (daemonStep_log hacts)
      · obtain ⟨waitTick, hdaemon, hactive, hticks⟩ := acts_daemon hacts
        exact .change waitTick hdaemon hactive hticks rfl
  | init activeLevel =>
      cases hfree : s.freeLed with
      | none =>
          refine .none (by simp [EbStep.acts, hfree]) ?_
          rw [EbStep.exec, EbState.initLed, hfree]
      | some j =>
          rcases eq_or_ne i j with rfl | hne
          · exact .init activeLevel hfree rfl
          · refine .rest (by simp [EbStep.acts, hfree, hne.symm]) ?_ ?_
            · exact initLed_still hfree hne activeLevel
            · exact writesOf_other hne.symm (initLed_lamp hfree activeLevel 0 0).own
  | easyblink j nums pulse period =>
      by_cases hinit : (s.leds j).init = true
      · rcases eq_or_ne i j with rfl | hne
        · exact .call nums pulse period hinit rfl
        · refine .rest (if_neg fun hself => hne hself.1.symm) ?_ ?_
          · rw [EbStep.exec, if_pos hinit]
            exact easyblink_still h hi hne nums pulse period
          · rw [EbStep.exec, if_pos hinit]
            exact writesOf_other hne.symm (easyblink_lamp s j nums pulse period 0 0).1.own
      · refine .none (if_neg ?_) (if_neg hinit)
        rintro ⟨rfl, hself⟩
        exact hinit hself
  | stop j =>
      by_cases hinit : (s.leds j).init = true
      · rcases eq_or_ne i j with rfl | hne
        · exact .stop hinit rfl
        · refine .rest (if_neg fun hself => hne hself.1.symm) ?_ ?_
          · rw [EbStep.exec, if_pos hinit]
            exact easyblinkStop_still hne
          · rw [EbStep.exec, if_pos hinit]
            exact writesOf_other hne.symm (easyblinkStop_lamp s j 0 0).own
      · refine .none (if_neg ?_) (if_neg hinit)
        rintro ⟨rfl, hself⟩
        exact hinit hself

/-- Every step keeps the marks. -/
theorem ebStep_sound (h : s.Sound) (x : EbStep) : (x.exec s).val.Sound := by
  cases x with
  | tick => exact tick_sound h
  | daemon => exact daemonStep_sound h
  | init activeLevel => exact initLed_sound h activeLevel
  | easyblink j nums pulse period =>
      by_cases hinit : (s.leds j).init = true
      · rw [EbStep.exec, if_pos hinit]
        exact easyblink_sound h hinit nums pulse period
      · rw [EbStep.exec, if_neg hinit]
        exact h
  | stop j =>
      by_cases hinit : (s.leds j).init = true
      · rw [EbStep.exec, if_pos hinit]
        exact easyblinkStop_sound h hinit
      · rw [EbStep.exec, if_neg hinit]
        exact h

theorem init_sound : EbState.init.Sound where
  timed := trivial
  signalled := by
    intro i _ hactive
    cases hactive
  started := fun _ _ => rfl
  called := by
    intro i hactive
    cases hactive

end Own

/-! ## Every step is one of the lamp -/

/-- The record shows the lamp, and promises no change before the lamp is due. -/
structure KeepsTime (i : Nat) (s : EbState) (l : Lamp) : Prop where
  lamp : (s.leds i).lamp l.due l.earliest = l
  promise : (s.leds i).active = true → (l.earliest : Int) ≤ s.promise i ∨ l.earliest ≤ s.now

/-- A step of the system is what it does to the lamp. -/
def LampStep (i : Nat) (x : EbStep) (s : EbState) (l : Lamp) : Prop :=
  Simulated (EbWrite.ofLed i) Lamp.exec Lamp.NotEarly (KeepsTime i) (x.exec s) l (x.acts i s)

section Lamps

variable {i : Nat} {s s' : EbState} {l : Lamp} {x : EbStep}

theorem KeepsTime.still (h : KeepsTime i s l) (hstill : Still i s s') : KeepsTime i s' l where
  lamp := (hstill.lamp _ _).trans h.lamp
  promise := by
    intro hactive
    rw [hstill.active] at hactive
    rw [hstill.promise hactive, hstill.now]
    exact h.promise hactive

theorem tick_leds (s : EbState) : s.rtTickIncrease.leds = s.leds := by
  obtain ⟨_, _, _, -, -, htick⟩ | ⟨-, htick⟩ := tick_cases s
  · rw [htick]
  · rw [htick]

theorem tick_now (s : EbState) : s.rtTickIncrease.now = s.now + 1 := by
  obtain ⟨_, _, _, -, -, htick⟩ | ⟨-, htick⟩ := tick_cases s
  · rw [htick]
  · rw [htick]

theorem tick_lampStep (h : s.Sound) (hkeeps : KeepsTime i s l) : LampStep i .tick s l := by
  refine Simulated.rest rfl ⟨?_, fun hactive => ?_⟩ rfl
  · rw [EbStep.exec, val_pure, tick_leds]
    exact hkeeps.lamp
  · rw [EbStep.exec, val_pure] at hactive ⊢
    rw [tick_leds] at hactive
    rcases hkeeps.promise hactive with hpromise | hpast
    · exact .inl (Int.le_trans hpromise (tick_promise h i))
    · exact .inr (Nat.le_trans hpast (tick_now s ▸ Nat.le_succ _))

theorem acts_pass {waitTick : Nat} (hdaemon : s.daemon = .pass waitTick i) (hi : i < ebLedNums)
    (hactive : (s.leds i).active = true) (hticks : (s.leds i).ticks - waitTick ≤ 0) :
    EbStep.daemon.acts i s = [(s.now, .change)] := by
  unfold EbStep.acts
  rw [hdaemon]
  exact if_pos ⟨rfl, hi, hactive, hticks⟩

/-- The daemon at the LED that is due. -/
theorem daemonStep_due {waitTick : Nat} (hdaemon : s.daemon = .pass waitTick i)
    (hi : i < ebLedNums) (hactive : (s.leds i).active = true)
    (hticks : (s.leds i).ticks - waitTick ≤ 0) : s.daemonStep =
      ((s.leds i).subTicks waitTick).switch s.now i >>= fun led =>
        pure { s.setLed i led with daemon := .pass waitTick (i + 1) } := by
  rw [EbState.daemonStep, hdaemon]
  dsimp only
  rw [if_pos hi, visit_due hactive hticks]

theorem change_lampStep {waitTick : Nat} (hkeeps : KeepsTime i s l)
    (hdaemon : s.daemon = .pass waitTick i) (hi : i < ebLedNums)
    (hactive : (s.leds i).active = true) (hticks : (s.leds i).ticks - waitTick ≤ 0) :
    LampStep i .daemon s l := by
  have hstep := daemonStep_due hdaemon hi hactive hticks
  have hsame := switch_lamp ((s.leds i).subTicks waitTick) s.now i l.due l.earliest hactive
  rw [show ((s.leds i).subTicks waitTick).lamp l.due l.earliest = l from hkeeps.lamp] at hsame
  refine Simulated.act (acts_pass hdaemon hi hactive hticks) ⟨?_, fun hon => .inl ?_⟩ ?_ ?_
  · rw [EbStep.exec, hstep, val_bind, val_pure]
    dsimp only
    rw [setLed_same]
    exact hsame.lamp
  · have hnext : ¬ i + 1 ≤ i := Nat.not_succ_le_self i
    rw [EbStep.exec, hstep, val_bind, val_pure] at hon ⊢
    dsimp only at hon
    rw [setLed_same] at hon
    obtain ⟨hdue, hearliest⟩ := hsame.ticks hon
    simp only [EbState.promise, EbState.pending, setLed_same, hnext, if_false, EbState.setLed_now]
    change ((l.change s.now).val.earliest : Int) ≤ _
    omega
  · rw [EbStep.exec, hstep, log_bind, log_pure, List.append_nil]
    exact (writesOf_own hsame.own).trans hsame.log
  · intro _
    refine ⟨?_, ?_⟩
    · rw [← hkeeps.lamp, EbLed.lamp, lamp_phase hactive]
      split <;> simp
    · rcases hkeeps.promise hactive with hpromise | hpast
      · simp only [EbState.promise, EbState.pending, hdaemon, Nat.le_refl, if_true] at hpromise
        dsimp only
        omega
      · exact hpast

theorem easyblink_lampStep (hkeeps : KeepsTime i s l) (hinit : (s.leds i).init = true)
    (nums : Int) (pulse period : Nat) : LampStep i (.easyblink i nums pulse period) s l := by
  obtain ⟨hcall, htime⟩ := easyblink_lamp s i nums pulse period l.due l.earliest
  have hexec : (EbStep.easyblink i nums pulse period).exec s = s.easyblink i nums pulse period :=
    if_pos hinit
  rw [hkeeps.lamp] at hcall htime
  refine Simulated.act (if_pos ⟨rfl, hinit⟩) ⟨?_, fun hactive => ?_⟩ ?_ (by simp [Lamp.NotEarly])
  · rw [hexec]
    exact hcall.lamp
  · rw [hexec] at hactive ⊢
    cases htime with
    | starts led hstate hon hcorrect hled hnow hticks =>
        rw [hnow.1, hstate, semRelease_now]
        exact .inr (Nat.le_refl _)
    | keeps led hstate hon hcorrect hled hticks hsame =>
        rw [hstate, setLed_same, hon] at hactive
        rw [hsame.1, hstate]
        have hpromise := hkeeps.promise hactive
        simp only [EbState.promise, EbState.pending, setLed_same, EbState.setLed_now,
          EbState.setLed_daemon, hticks, hcorrect] at hpromise ⊢
        exact hpromise
  · rw [hexec]
    exact (writesOf_own hcall.own).trans hcall.log

theorem stop_lampStep (hkeeps : KeepsTime i s l) (hinit : (s.leds i).init = true) :
    LampStep i (.stop i) s l := by
  have hcall := easyblinkStop_lamp s i l.due l.earliest
  have hexec : (EbStep.stop i).exec s = s.easyblinkStop i := if_pos hinit
  rw [hkeeps.lamp] at hcall
  refine Simulated.act (if_pos ⟨rfl, hinit⟩) ⟨?_, fun hactive => ?_⟩ ?_ (by simp [Lamp.NotEarly])
  · rw [hexec]
    exact hcall.lamp
  · rw [hexec] at hactive
    have hidle : ((s.easyblinkStop i).val.leds i).active = false := by
      simp [EbState.easyblinkStop, setLed_same]
    rw [hidle] at hactive
    cases hactive
  · rw [hexec]
    exact (writesOf_own hcall.own).trans hcall.log

theorem initLed_idle (h : s.Sound) (hfree : s.freeLed = some i) (activeLevel : PinLevel) :
    ((s.initLed activeLevel).val.leds i).active = false := by
  obtain ⟨led, hactive, -, ⟨-, hval⟩ | ⟨-, hval⟩⟩ := initLed_cases hfree activeLevel
  · rw [hval, setLed_same, hactive, h.idle_of_free hfree]
  · rw [hval]
    dsimp only
    rw [setLed_same, hactive, h.idle_of_free hfree]

theorem init_lampStep (h : s.Sound) (hkeeps : KeepsTime i s l) (hfree : s.freeLed = some i)
    (activeLevel : PinLevel) : LampStep i (.init activeLevel) s l := by
  have hcall := initLed_lamp hfree activeLevel l.due l.earliest
  rw [hkeeps.lamp] at hcall
  refine Simulated.act (if_pos hfree) ⟨hcall.lamp, fun hon => ?_⟩ ?_ (by simp [Lamp.NotEarly])
  · rw [EbStep.exec, initLed_idle h hfree activeLevel] at hon
    cases hon
  · rw [EbStep.exec]
    exact (writesOf_own hcall.own).trans hcall.log

/-- Every step of the system is what it does to the lamp of an LED. -/
theorem ebStep_lampStep (h : s.Sound) (hi : i < ebLedNums) (hkeeps : KeepsTime i s l)
    (x : EbStep) : LampStep i x s l := by
  cases ebStep_of h hi x with
  | tick hstep =>
      subst hstep
      exact tick_lampStep h hkeeps
  | rest hacts hstill hlog => exact Simulated.rest hacts (hkeeps.still hstill) hlog
  | change waitTick hdaemon hactive hticks hstep =>
      subst hstep
      exact change_lampStep hkeeps hdaemon hi hactive hticks
  | init activeLevel hfree hstep =>
      subst hstep
      exact init_lampStep h hkeeps hfree activeLevel
  | call nums pulse period hinit hstep =>
      subst hstep
      exact easyblink_lampStep hkeeps hinit nums pulse period
  | stop hinit hstep =>
      subst hstep
      exact stop_lampStep hkeeps hinit

theorem init_keepsTime (i : Nat) : KeepsTime i .init .fresh where
  lamp := rfl
  promise := by
    intro hactive
    cases hactive

theorem ebSteps_lamp (h : s.Sound) (hkeeps : KeepsTime i s l) (hi : i < ebLedNums)
    (xs : List EbStep) :
    Simulated (EbWrite.ofLed i) Lamp.exec Lamp.NotEarly (fun s l => s.Sound ∧ KeepsTime i s l)
      ⟨run (unlogged EbStep.exec) s xs, trace EbStep.exec s xs⟩ l
      (trace (acting EbStep.exec (EbStep.acts i)) s xs) := by
  refine simulated_run (fun x s l h _ => ?_) (meets_true xs) ⟨h, hkeeps⟩
  exact (ebStep_lampStep h.1 hi h.2 x).mono fun _ hkeeps => ⟨ebStep_sound h.1 x, hkeeps⟩

theorem ebRun_lamp (hi : i < ebLedNums) (xs : List EbStep) :
    Simulated (EbWrite.ofLed i) Lamp.exec Lamp.NotEarly (fun s l => s.Sound ∧ KeepsTime i s l)
      ⟨ebRun xs, trace EbStep.exec .init xs⟩ .fresh (lampActs i xs) :=
  ebSteps_lamp init_sound (init_keepsTime i) hi xs

end Lamps

/-! ## Statement by statement -/

/-- The writes to the pin of LED `i` in the steps `xs`, statement by statement. -/
def statementWrites (i : Nat) (xs : List EbStep) : List (Nat × Bool) :=
  writesOf i (trace EbSystem.exec .init xs)

section Statements

variable {cond : EbStep → EbState → Prop} {i : Nat} {xs ys : List EbStep}

theorem SameRun.writes (h : SameRun cond .init .init xs ys) (i : Nat) :
    ebWrites i ys = statementWrites i xs := congrArg (writesOf i) h.trace

theorem SameRun.led (h : SameRun cond .init .init xs ys) (hi : ¬ (ebSystem xs).Visits i) :
    (ebRun ys).leds i = (ebSystem xs).state.leds i := h.related.leds hi

/-- However late the daemon is and whatever comes between its statements, as long as no
call interrupts a visit: each LED goes through what the lamp of its own calls goes
through, and it never changes before it may. -/
theorem leds_blink (i : Fin ebLedNums) (xs : List EbStep)
    (hmeets : Meets EbStep.Uninterrupting (unlogged EbSystem.exec) .init xs) :
    ∃ ys, ticksAndCalls ys = ticksAndCalls xs ∧
      Meets Lamp.NotEarly (unlogged Lamp.exec) .fresh (lampActs i ys) ∧
      statementWrites i xs = trace Lamp.exec .fresh (lampActs i ys) ∧
      (¬ (ebSystem xs).Visits i →
        ∃ due earliest, ((ebSystem xs).state.leds i).lamp due earliest =
          run (unlogged Lamp.exec) .fresh (lampActs i ys)) := by
  obtain ⟨ys, hys⟩ := sameRun_init hmeets
  have hrun := ebRun_lamp i.isLt ys
  refine ⟨ys, hys.outer, hrun.meets, (hys.writes i).symm.trans hrun.log, fun hbetween => ?_⟩
  rw [← hys.led hbetween]
  exact ⟨_, _, hrun.related.2.lamp⟩

/-- The beeper, with a tick between two statements of its visit. Its pin is written
after the tick. -/
theorem leds_blink_beeper : ∃ ys, ticksAndCalls ys =
      [.init .low, .init .high, .easyblink 1 2 50 200, .tick] ∧
    trace Lamp.exec .fresh (lampActs 1 ys) = [(0, false), (0, false), (1, true)] := by
  obtain ⟨ys, houter, -, hwrites, -⟩ := leds_blink ⟨1, by decide⟩
    ([.init .low, .init .high, .easyblink 1 2 50 200] ++ List.replicate 12 .daemon ++ [.tick] ++
      List.replicate 6 .daemon) (by decide +kernel)
  exact ⟨ys, houter, hwrites.symm.trans (by decide +kernel)⟩

end Statements

end SmartCar
