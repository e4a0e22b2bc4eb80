import SmartCar.Blink.EasyBlink
import SmartCar.Imperative.Simulation
import SmartCar.Imperative.Statements

/-!
# Visits, statement by statement

The package is built without its mutex, so nothing keeps a call from coming between
two statements of a visit. Here the daemon goes through its visits statement by
statement, while a call is still one step: the daemon has a lower priority than the
threads that call. As long as no call interrupts a visit, whatever else happens
meanwhile, the daemon does what it would do if each visit were one step.
-/

namespace SmartCar

open Imperative Logged

/-! ## The code of a visit -/

/-- The record of the LED that is visited, with the variable `tick_min`. -/
structure EbVisit where
  led : EbLed
  tickMin : Int

abbrev EbCode := Code Bool EbVisit

namespace EbCode

def assign (f : EbLed → EbLed) (rest : EbCode) : EbCode :=
  Code.set (fun v => { v with led := f v.led }) rest

def write (f : EbLed → EbLed) (rest : EbCode) : EbCode :=
  Code.emit (fun v => { v with led := f v.led }) (fun v => decide v.led.Lit) rest

def test (c : EbLed → Bool) (yes no : EbCode) : EbCode :=
  Code.branch (fun v => c v.led) yes no

/-- An LED that is due is switched on. -/
def switchOn : EbCode :=
  write EbLed.on <|
  assign (fun led => { led with shouldOn := false }) <|
  assign (fun led => { led with ticks := led.pulse }) .done

/-- An LED that is due is switched off. -/
def switchOff : EbCode :=
  write EbLed.off <|
  assign (fun led => { led with shouldOn := true }) <|
  assign (fun led => { led with ticks := led.npulse }) <|
  test (fun led => led.nums > 0) (assign (fun led => { led with nums := led.nums - 1 }) .done) .done

/-- What waits is taken from the backup. -/
def takeBackup : EbCode :=
  assign (fun led => { led with nums := led.numsBak }) <|
  assign (fun led => { led with pulse := led.pulseBak }) <|
  assign (fun led => { led with npulse := led.npulseBak }) <|
  assign (fun led => { led with npulseBak := 0 }) <|
  assign (fun led => { led with pulseBak := 0 }) <|
  assign (fun led => { led with numsBak := 0 }) <|
  assign (fun led => { led with ticks := 0 }) <|
  test (fun led => led.nums = -1)
    (assign (fun led => { led with ticks := ebMsToTick ebWaitMsEnd }) .done) .done

/-- An LED that has been dark for its time. -/
def afterDark : EbCode :=
  test (fun led => led.nums > 0) switchOn <|
  test (fun led => led.nums = -1) switchOn <|
  test (fun led => led.pulseBak ≠ 0) takeBackup <|
  assign (fun led => { led with active := false }) .done

/-- The body of the `for` loop of the daemon. -/
def visit (waitTick : Nat) : EbCode :=
  assign (EbLed.subTicks waitTick) <|
  test (fun led => led.active)
    (test (fun led => led.ticks ≤ 0) (test (fun led => led.shouldOn) afterDark switchOff) .done)
    .done

def minimum : EbCode :=
  Code.branch (fun v => v.led.ticks < v.tickMin)
    (Code.set (fun v => { v with tickMin := v.led.ticks }) .done) .done

/-- The body of the loop in `correct_or_get_min_ticks`. -/
def least (elapsed : Option Nat) : EbCode :=
  test (fun led => led.active)
    (match elapsed with
    | none => minimum
    | some tick =>
        test (fun led => led.correct) (assign (fun led => { led with correct := false }) minimum)
          (assign (fun led => { led with ticks := led.ticks - tick }) minimum))
    .done

end EbCode

/-! ## The system -/

namespace EbDaemon

/-- The LED that is visited next, with the code of the visit. -/
def visits : EbDaemon → Option (Nat × EbCode)
  | .least elapsed i _ => if i < ebLedNums then some (i, .least elapsed) else none
  | .pass waitTick i => if i < ebLedNums then some (i, .visit waitTick) else none
  | _ => none

def tickMin : EbDaemon → Int
  | .least _ _ tickMin => tickMin
  | _ => 0

/-- Where the daemon is after a visit. -/
def next (tickMin : Int) : EbDaemon → EbDaemon
  | .least elapsed i _ => .least elapsed (i + 1) tickMin
  | .pass waitTick i => .pass waitTick (i + 1)
  | d => d

end EbDaemon

/-- The end of a visit. -/
def EbState.leave (i : Nat) (v : EbVisit) (s : EbState) : EbState :=
  { s.setLed i v.led with daemon := s.daemon.next v.tickMin }

/-- The system, with what is left of the visit that the daemon is in and its `tick_min`. -/
structure EbSystem where
  state : EbState
  visit : Option (EbCode × Int)

namespace EbSystem

def init : EbSystem := ⟨.init, none⟩

/-- The next statement of the daemon. -/
def daemonStep (f : EbSystem) : Logged EbWrite EbSystem :=
  match f.state.daemon.visits with
  | none => do
      let state ← f.state.daemonStep
      return { f with state }
  | some (i, code) => do
      let (code, tickMin) := f.visit.getD (code, f.state.daemon.tickMin)
      let (rest, v) ←
        relabel (fun lit => ⟨f.state.now, i, lit⟩) (code.first ⟨f.state.leds i, tickMin⟩)
      return if rest.isDone then ⟨f.state.leave i v, none⟩
        else ⟨f.state.setLed i v.led, some (rest, v.tickMin)⟩

/-- A step of the system; calls may come between any two statements of the daemon. -/
def exec (x : EbStep) (f : EbSystem) : Logged EbWrite EbSystem :=
  match x with
  | .daemon => f.daemonStep
  | .tick | .init _ | .easyblink .. | .stop _ => do
      let state ← x.exec f.state
      return { f with state }

end EbSystem

/-- The daemon is between two statements of a visit of LED `i`. -/
def EbSystem.Visits (i : Nat) (f : EbSystem) : Prop :=
  f.visit ≠ none ∧ f.state.daemon.visits.map Prod.fst = some i

instance (i : Nat) (f : EbSystem) : Decidable (f.Visits i) := inferInstanceAs (Decidable (_ ∧ _))

/-- No call interrupts a visit. -/
def EbStep.Uninterrupting (x : EbStep) (f : EbSystem) : Prop :=
  match x with
  | .tick | .daemon => True
  | .init _ | .easyblink .. | .stop _ => f.visit = none

instance (x : EbStep) (f : EbSystem) : Decidable (x.Uninterrupting f) :=
  match x with
  | .tick | .daemon => .isTrue trivial
  | .init _ | .easyblink .. | .stop _ => inferInstanceAs (Decidable (f.visit = none))

/-! ## Visits in one step -/

namespace EbCode

theorem single_visit (waitTick : Nat) : (visit waitTick).Single := by
  simp [visit, afterDark, switchOn, switchOff, takeBackup, assign, write, test, Code.Single,
    Code.Silent]

theorem single_least (elapsed : Option Nat) : (least elapsed).Single := by
  cases elapsed <;> simp [least, minimum, assign, test, Code.Single]

theorem finish_least (elapsed : Option Nat) (v : EbVisit) : (least elapsed).finish v =
    pure ⟨v.led.correctTicks elapsed, (v.led.correctTicks elapsed).minTicks v.tickMin⟩ := by
  have hminimum (v : EbVisit) (hactive : v.led.active = true) :
      minimum.finish v = pure ⟨v.led, v.led.minTicks v.tickMin⟩ := by
    by_cases hless : v.led.ticks < v.tickMin <;>
      simp [minimum, Code.finish, EbLed.minTicks, hactive, hless]
  cases hactive : v.led.active with
  | false => cases elapsed <;>
      simp [least, test, Code.finish, EbLed.correctTicks, EbLed.minTicks, hactive]
  | true =>
      cases elapsed with
      | none =>
          simp [least, test, Code.finish, EbLed.correctTicks, hactive, hminimum]
      | some tick => cases hcorrect : v.led.correct <;>
          simp [least, test, assign, Code.finish, EbLed.correctTicks, hactive, hcorrect, hminimum]

theorem finish_switch (now i : Nat) (v : EbVisit) :
    relabel (fun lit => EbWrite.mk now i lit)
        ((test (fun led => led.shouldOn) afterDark switchOff).finish v) =
      ⟨⟨(v.led.switch now i).val, v.tickMin⟩, (v.led.switch now i).log⟩ := by
  obtain ⟨led, tickMin⟩ := v
  cases hon : led.shouldOn with
  | false =>
      by_cases hnums : led.nums > 0 <;>
        simp [test, switchOff, write, assign, Code.finish, EbLed.switch, EbLed.off,
          relabel, log_bind, log_touch, hon, hnums]
  | true =>
      by_cases hnums : led.nums > 0
      · simp [test, afterDark, switchOn, write, assign, Code.finish, EbLed.switch, EbLed.on,
          relabel, log_bind, log_touch, hon, hnums]
      by_cases hever : led.nums = -1
      · simp [test, afterDark, switchOn, write, assign, Code.finish, EbLed.switch, EbLed.on,
          relabel, log_bind, log_touch, hon, hever]
      by_cases hbak : led.pulseBak = 0
      · simp [test, afterDark, assign, Code.finish, EbLed.switch, relabel, hon, hnums, hever, hbak]
      by_cases hnext : led.numsBak = -1 <;>
        simp [test, afterDark, takeBackup, assign, Code.finish, EbLed.switch, relabel, hon, hnums,
          hever, hbak, hnext]

theorem finish_visit (now i waitTick : Nat) (v : EbVisit) :
    relabel (fun lit => EbWrite.mk now i lit) ((visit waitTick).finish v) =
      ⟨⟨(v.led.visit now i waitTick).val, v.tickMin⟩, (v.led.visit now i waitTick).log⟩ := by
  obtain ⟨led, tickMin⟩ := v
  have hswitch := finish_switch now i ⟨led.subTicks waitTick, tickMin⟩
  by_cases hactive : (led.subTicks waitTick).active = true
  · by_cases hdue : (led.subTicks waitTick).ticks ≤ 0
    · simpa [visit, assign, test, Code.finish, EbLed.visit, hactive, hdue] using hswitch
    · simp [visit, assign, test, Code.finish, EbLed.visit, relabel, hactive, hdue]
  · simp [visit, assign, test, Code.finish, EbLed.visit, relabel, hactive]

end EbCode

theorem EbDaemon.visits_cases {d : EbDaemon} {i : Nat} {code : EbCode}
    (h : d.visits = some (i, code)) : i < ebLedNums ∧
      ((∃ elapsed tickMin, d = .least elapsed i tickMin ∧ code = .least elapsed) ∨
        ∃ waitTick, d = .pass waitTick i ∧ code = .visit waitTick) := by
  cases d with
  | least elapsed j tickMin =>
      simp only [visits, Option.ite_none_right_eq_some, Option.some_inj, Prod.mk.injEq] at h
      obtain ⟨hj, rfl, rfl⟩ := h
      exact ⟨hj, .inl ⟨elapsed, tickMin, rfl, rfl⟩⟩
  | pass waitTick j =>
      simp only [visits, Option.ite_none_right_eq_some, Option.some_inj, Prod.mk.injEq] at h
      obtain ⟨hj, rfl, rfl⟩ := h
      exact ⟨hj, .inr ⟨waitTick, rfl, rfl⟩⟩
  | absent | loop | wait | take | blocked | woken => cases h

theorem EbDaemon.single_visits {d : EbDaemon} {i : Nat} {code : EbCode}
    (h : d.visits = some (i, code)) : code.Single := by
  obtain ⟨-, ⟨elapsed, -, -, rfl⟩ | ⟨waitTick, -, rfl⟩⟩ := d.visits_cases h
  · exact EbCode.single_least elapsed
  · exact EbCode.single_visit waitTick

/-- Without interruption a visit is the step that it was taken for. -/
theorem EbState.daemonStep_visits {s : EbState} {i : Nat} {code : EbCode}
    (h : s.daemon.visits = some (i, code)) : s.daemonStep = do
      let v ← relabel (fun lit => EbWrite.mk s.now i lit)
        (code.finish ⟨s.leds i, s.daemon.tickMin⟩)
      return s.leave i v := by
  obtain ⟨hi, ⟨elapsed, tickMin, hd, rfl⟩ | ⟨waitTick, hd, rfl⟩⟩ := s.daemon.visits_cases h
  · rw [EbCode.finish_least, daemonStep, hd]
    dsimp only
    rw [if_pos hi]
    simp only [leave, hd]
    rfl
  · rw [EbCode.finish_visit, daemonStep, hd]
    dsimp only
    rw [if_pos hi]
    simp only [leave, hd]
    rfl

section Leds

variable {i j : Nat} {s : EbState} {led : EbLed}

theorem setLed_same : (s.setLed i led).leds i = led := Function.update_self ..

theorem setLed_of_ne (hne : i ≠ j) : (s.setLed j led).leds i = s.leds i :=
  Function.update_of_ne hne ..

theorem EbState.setLed_setLed (led led' : EbLed) :
    (s.setLed i led).setLed i led' = s.setLed i led' := by
  simp [EbState.setLed]

theorem EbState.setLed_eq : s.setLed i (s.leds i) = s := by
  simp [EbState.setLed]

theorem EbState.leave_setLed (led : EbLed) (v : EbVisit) :
    (s.setLed i led).leave i v = s.leave i v := by
  simp [EbState.leave, EbState.setLed]

theorem EbState.tick_visits {code : EbCode} (h : s.daemon.visits = some (i, code)) :
    s.rtTickIncrease = { s with now := s.now + 1 } := by
  unfold EbState.rtTickIncrease
  obtain ⟨-, ⟨elapsed, tickMin, hd, -⟩ | ⟨waitTick, hd, -⟩⟩ := s.daemon.visits_cases h
  · rw [hd]
  · rw [hd]

theorem EbState.tick_leave {code : EbCode} (h : s.daemon.visits = some (i, code)) (v : EbVisit) :
    (s.leave i v).rtTickIncrease = { s.leave i v with now := s.now + 1 } := by
  unfold EbState.rtTickIncrease EbState.leave
  obtain ⟨-, ⟨elapsed, tickMin, hd, -⟩ | ⟨waitTick, hd, -⟩⟩ := s.daemon.visits_cases h
  · rw [hd]
    rfl
  · rw [hd]
    rfl

end Leds

/-! ## The two systems -/

/-- A state of the system whose visits are single steps, beside the one that goes through
them statement by statement. It makes its visit at the write to the pin, or else at the
end. -/
inductive Matches (f : EbSystem) (s : EbState) : Prop
  | between (visit : f.visit = none) (state : s = f.state)
  | before {i : Nat} {code rest : EbCode} {tickMin : Int} {led : EbLed}
      (visits : f.state.daemon.visits = some (i, code)) (visit : f.visit = some (rest, tickMin))
      (single : rest.Single)
      (same : code.finish ⟨led, f.state.daemon.tickMin⟩ = rest.finish ⟨f.state.leds i, tickMin⟩)
      (state : s = f.state.setLed i led)
  | after {i : Nat} {code rest : EbCode} {tickMin : Int}
      (visits : f.state.daemon.visits = some (i, code)) (visit : f.visit = some (rest, tickMin))
      (silent : rest.Silent)
      (state : s = f.state.leave i (rest.finish ⟨f.state.leds i, tickMin⟩).val)

section Match

variable {f : EbSystem} {s : EbState} {i : Nat} {code rest : EbCode} {tickMin : Int} {v : EbVisit}

theorem Matches.eq (h : Matches f s) (hvisit : f.visit = none) : s = f.state := by
  cases h with
  | between _ state => exact state
  | before _ visit | after _ visit =>
      rw [hvisit] at visit
      cases visit

/-- While the daemon is between two visits, the two systems are alike. -/
theorem Matches.of_visits (h : Matches f s) (hvisits : f.state.daemon.visits = none) :
    f.visit = none ∧ s = f.state := by
  cases h with
  | between visit state => exact ⟨visit, state⟩
  | before visits | after visits =>
      rw [hvisits] at visits
      cases visits

/-- The two systems differ in the LED that is visited only. -/
theorem Matches.leds (h : Matches f s) (hi : ¬ f.Visits i) : s.leds i = f.state.leds i := by
  cases h with
  | between _ state => rw [state]
  | @before j code rest tickMin led visits visit _ _ state =>
      have hne : i ≠ j := by
        rintro rfl
        exact hi ⟨by simp [visit], by rw [visits]; rfl⟩
      rw [state, setLed_of_ne hne]
  | @after j code rest tickMin visits visit _ state =>
      have hne : i ≠ j := by
        rintro rfl
        exact hi ⟨by simp [visit], by rw [visits]; rfl⟩
      rw [state]
      exact setLed_of_ne hne

/-- What the daemon does in a visit. -/
theorem EbSystem.daemonStep_eq (hvisits : f.state.daemon.visits = some (i, code))
    (hvisit : f.visit.getD (code, f.state.daemon.tickMin) = (rest, tickMin)) : f.daemonStep = do
      let (rest, v) ← relabel (fun lit => EbWrite.mk f.state.now i lit)
        (rest.first ⟨f.state.leds i, tickMin⟩)
      return if rest.isDone then ⟨f.state.leave i v, none⟩
        else ⟨f.state.setLed i v.led, some (rest, v.tickMin)⟩ := by
  rw [EbSystem.daemonStep, hvisits]
  dsimp only
  rw [hvisit]

/-- After the write there is nothing left to do but what has been done. -/
theorem matches_after (hvisits : f.state.daemon.visits = some (i, code)) (hsilent : rest.Silent) :
    Matches (if rest.isDone then ⟨f.state.leave i v, none⟩
      else ⟨f.state.setLed i v.led, some (rest, v.tickMin)⟩)
      (f.state.leave i (rest.finish v).val) := by
  cases hdone : rest.isDone with
  | true =>
      rw [if_pos rfl, Code.finish_of_isDone hdone]
      exact .between rfl rfl
  | false =>
      rw [if_neg Bool.false_ne_true]
      refine .after hvisits rfl hsilent ?_
      rw [setLed_same, EbState.leave_setLed]

theorem matches_before {led : EbLed} (hvisits : f.state.daemon.visits = some (i, code))
    (hmore : rest.isDone = false) (hsingle : rest.Single)
    (hsame : code.finish ⟨led, f.state.daemon.tickMin⟩ = rest.finish v) :
    Matches (if rest.isDone then ⟨f.state.leave i v, none⟩
      else ⟨f.state.setLed i v.led, some (rest, v.tickMin)⟩) (f.state.setLed i led) := by
  rw [hmore, if_neg Bool.false_ne_true]
  refine .before hvisits rfl hsingle ?_ (EbState.setLed_setLed _ _).symm
  rw [setLed_same]
  exact hsame

/-- Where the daemon is in a visit: its write is still to come, or only silent code is
left. -/
theorem Matches.visiting (h : Matches f s) (hvisits : f.state.daemon.visits = some (i, code)) :
    ∃ rest tickMin, f.visit.getD (code, f.state.daemon.tickMin) = (rest, tickMin) ∧
      ((∃ led, rest.Single ∧ s = f.state.setLed i led ∧
          code.finish ⟨led, f.state.daemon.tickMin⟩ = rest.finish ⟨f.state.leds i, tickMin⟩) ∨
        rest.Silent ∧ s = f.state.leave i (rest.finish ⟨f.state.leds i, tickMin⟩).val) := by
  cases h with
  | between visit state =>
      refine ⟨code, _, by rw [visit]; rfl, .inl ⟨f.state.leds i, ?_, ?_, rfl⟩⟩
      · exact EbDaemon.single_visits hvisits
      · rw [state, EbState.setLed_eq]
  | before visits visit single same state =>
      rw [hvisits] at visits
      obtain ⟨rfl, rfl⟩ := visits
      exact ⟨_, _, by rw [visit]; rfl, .inl ⟨_, single, state, same⟩⟩
  | after visits visit silent state =>
      rw [hvisits] at visits
      obtain ⟨rfl, rfl⟩ := visits
      exact ⟨_, _, by rw [visit]; rfl, .inr ⟨silent, state⟩⟩

/-- The step of the other system, before its visit. -/
theorem daemonStep_before {led : EbLed} (hvisits : f.state.daemon.visits = some (i, code))
    (hsame : code.finish ⟨led, f.state.daemon.tickMin⟩ =
      rest.finish ⟨f.state.leds i, tickMin⟩) : (f.state.setLed i led).daemonStep =
    ⟨f.state.leave i (rest.finish ⟨f.state.leds i, tickMin⟩).val,
      (rest.finish ⟨f.state.leds i, tickMin⟩).log.map (EbWrite.mk f.state.now i)⟩ := by
  have hstep : (f.state.setLed i led).daemonStep = do
      let v ← relabel (fun lit => EbWrite.mk f.state.now i lit)
        (code.finish ⟨(f.state.setLed i led).leds i, f.state.daemon.tickMin⟩)
      return (f.state.setLed i led).leave i v := EbState.daemonStep_visits hvisits
  rw [setLed_same, hsame] at hstep
  rw [hstep, ← EbState.leave_setLed led]
  refine congrArg (Logged.mk _) ?_
  exact List.append_nil _

/-- A statement of the daemon: the other system goes on, too, or it stays where it is. -/
theorem daemon_matches (h : Matches f s) :
    Matches f.daemonStep.val s.daemonStep.val ∧ f.daemonStep.log = s.daemonStep.log ∨
      Matches f.daemonStep.val s ∧ f.daemonStep.log = [] := by
  cases hvisits : f.state.daemon.visits with
  | none =>
      obtain ⟨hvisit, rfl⟩ := h.of_visits hvisits
      rw [EbSystem.daemonStep, hvisits]
      exact .inl ⟨.between hvisit rfl, List.append_nil _⟩
  | some p =>
      obtain ⟨i, code⟩ := p
      obtain ⟨rest, tickMin, hvisit, ⟨led, hsingle, rfl, hsame⟩ | ⟨hsilent, rfl⟩⟩ :=
        h.visiting hvisits
      · rw [EbSystem.daemonStep_eq hvisits hvisit, daemonStep_before hvisits hsame]
        rcases hsingle.first ⟨f.state.leds i, tickMin⟩ with ⟨hmore, hsingle, hlog⟩ | ⟨hsilent, hlog⟩
        · -- the write is still to come
          refine .inr ⟨?_, ?_⟩
          · exact matches_before hvisits hmore hsingle
              (hsame.trans (Code.finish_first_of_log hlog))
          · rw [log_bind, List.append_eq_nil_iff]
            exact ⟨List.map_eq_nil_iff.mpr hlog, rfl⟩
        · -- the write is made, or the visit ends without one
          refine .inl ⟨?_, ?_⟩
          · rw [Code.val_finish_first]
            exact matches_after hvisits hsilent
          · rw [hlog]
            exact List.append_nil _
      · rw [EbSystem.daemonStep_eq hvisits hvisit, Code.val_finish_first]
        obtain ⟨hlog, hsilent⟩ := hsilent.first ⟨f.state.leds i, tickMin⟩
        refine .inr ⟨matches_after hvisits hsilent, ?_⟩
        rw [log_bind, List.append_eq_nil_iff]
        exact ⟨List.map_eq_nil_iff.mpr hlog, rfl⟩

theorem tick_matches (h : Matches f s) :
    Matches (EbSystem.exec .tick f).val (EbStep.tick.exec s).val := by
  cases h with
  | between visit state =>
      subst state
      exact .between visit rfl
  | @before i code rest tickMin led visits visit single same state =>
      subst state
      change Matches ⟨f.state.rtTickIncrease, f.visit⟩ (f.state.setLed i led).rtTickIncrease
      have hvisits : (f.state.setLed i led).daemon.visits = some (i, code) := visits
      rw [EbState.tick_visits visits, EbState.tick_visits hvisits]
      exact .before visits visit single same rfl
  | @after i code rest tickMin visits visit silent state =>
      subst state
      change Matches ⟨f.state.rtTickIncrease, f.visit⟩ (f.state.leave i _).rtTickIncrease
      rw [EbState.tick_visits visits, EbState.tick_leave visits]
      exact .after visits visit silent rfl

/-- A step that does not interrupt a visit: the other system makes it, too, unless it is a
statement of the daemon before or after the write of its visit. -/
theorem exec_matches {x : EbStep} (h : Matches f s) (hx : x.Uninterrupting f) :
    Matches (EbSystem.exec x f).val (x.exec s).val ∧ (EbSystem.exec x f).log = (x.exec s).log ∨
      x = .daemon ∧ Matches (EbSystem.exec x f).val s ∧ (EbSystem.exec x f).log = [] := by
  cases x with
  | daemon => exact (daemon_matches h).imp_right fun hstays => ⟨rfl, hstays⟩
  | tick => exact .inl ⟨tick_matches h, rfl⟩
  | init | easyblink | stop =>
      rw [h.eq hx]
      exact .inl ⟨.between hx rfl, List.append_nil _⟩

end Match

/-! ## Runs -/

/-- The ticks and calls of a run, which are no steps of the daemon. -/
def ticksAndCalls (xs : List EbStep) : List EbStep :=
  xs.filter fun
    | .daemon => false
    | .tick | .init _ | .easyblink .. | .stop _ => true

/-- The state after the steps `xs`, statement by statement. -/
def ebSystem (xs : List EbStep) : EbSystem := run (unlogged EbSystem.exec) .init xs

/-- A run of one system beside a run of the other with the same ticks and calls. -/
structure SameRun (cond : EbStep → EbState → Prop) (f : EbSystem) (s : EbState)
    (xs ys : List EbStep) : Prop where
  sublist : ys.Sublist xs
  outer : ticksAndCalls ys = ticksAndCalls xs
  meets : Meets cond (unlogged EbStep.exec) s ys
  trace : trace EbStep.exec s ys = trace EbSystem.exec f xs
  related : Matches (run (unlogged EbSystem.exec) f xs) (run (unlogged EbStep.exec) s ys)

/-- A run in which no call interrupts a visit is a run whose visits are single steps, with
fewer steps of the daemon. What its steps meet, the steps of the other run meet. -/
theorem sameRun {cond : EbStep → EbState → Prop} {cond' : EbStep → EbSystem → Prop}
    (hcond : ∀ x f s, Matches f s → cond' x f → x.Uninterrupting f ∧ cond x s)
    {f : EbSystem} {s : EbState} (h : Matches f s) {xs : List EbStep}
    (hmeets : Meets cond' (unlogged EbSystem.exec) f xs) : ∃ ys, SameRun cond f s xs ys := by
  induction xs generalizing f s with
  | nil => exact ⟨[], .refl _, rfl, trivial, rfl, h⟩
  | cons x xs ih =>
      obtain ⟨hx, hxs⟩ := hmeets
      obtain ⟨huninterrupting, hconds⟩ := hcond x f s h hx
      rcases exec_matches h huninterrupting with ⟨hnext, hlog⟩ | ⟨rfl, hnext, hlog⟩
      · obtain ⟨ys, hys⟩ := ih hnext hxs
        refine ⟨x :: ys, hys.sublist.cons_cons x, ?_, ⟨hconds, hys.meets⟩, ?_, hys.related⟩
        · cases x with
          | daemon => exact hys.outer
          | tick | init | easyblink | stop => exact congrArg (List.cons _) hys.outer
        · rw [trace_cons, trace_cons, hlog, hys.trace]
      · obtain ⟨ys, hys⟩ := ih hnext hxs
        refine ⟨ys, hys.sublist.cons _, hys.outer, hys.meets, ?_, hys.related⟩
        rw [trace_cons, hlog, hys.trace]
        rfl

section Runs

variable {cond : EbStep → EbState → Prop} {f : EbSystem} {s : EbState} {xs ys xs' ys' : List EbStep}

theorem SameRun.append (h : SameRun cond f s xs ys)
    (h' : SameRun cond (run (unlogged EbSystem.exec) f xs) (run (unlogged EbStep.exec) s ys)
      xs' ys') : SameRun cond f s (xs ++ xs') (ys ++ ys') where
  sublist := h.sublist.append h'.sublist
  outer := by
    rw [ticksAndCalls, List.filter_append, ticksAndCalls, List.filter_append]
    exact congrArg₂ _ h.outer h'.outer
  meets := (meets_append ys ys').mpr ⟨h.meets, h'.meets⟩
  trace := by rw [trace_append, trace_append, h.trace, h'.trace]
  related := by
    rw [run_append, run_append]
    exact h'.related

/-- A call between two visits. -/
theorem sameRun_easyblink {i : Nat} {nums : Int} {pulse period : Nat} (hvisit : f.visit = none)
    (hcond : cond (.easyblink i nums pulse period) f.state) : SameRun cond f f.state
      [.easyblink i nums pulse period] [.easyblink i nums pulse period] where
  sublist := .refl _
  outer := rfl
  meets := ⟨hcond, trivial⟩
  trace := congrArg (· ++ []) (List.append_nil _).symm
  related := .between hvisit rfl

end Runs

/-- From the start, with nothing asked of the steps but that no call interrupts a visit. -/
theorem sameRun_init {xs : List EbStep}
    (hmeets : Meets EbStep.Uninterrupting (unlogged EbSystem.exec) .init xs) :
    ∃ ys, SameRun (fun _ _ => True) .init .init xs ys :=
  sameRun (fun _ _ _ _ hx => ⟨hx, trivial⟩) (.between rfl rfl) hmeets

/-- A call that comes between the test of `pulse_bak` and the end of the visit is put
into the backup of an LED that is then left idle. -/
example : ((ebSystem ([.init .low, .easyblink 0 0 50 200] ++ List.replicate 14 .daemon ++
      [.easyblink 0 1 50 200, .daemon])).state.leds 0).active = false ∧
    ((ebSystem ([.init .low, .easyblink 0 0 50 200] ++ List.replicate 14 .daemon ++
      [.easyblink 0 1 50 200, .daemon])).state.leds 0).pulseBak = 50 := by
  decide +kernel

end SmartCar
