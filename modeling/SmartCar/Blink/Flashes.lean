import SmartCar.Blink.Interleaving

/-!
# Flashes

What a call is seen to do, however late the daemon is and whatever is called for the
other LED: so many flashes, and none of them cut short.
-/

namespace SmartCar

open Imperative Logged

/-! ## Flashes of a lamp -/

/-- How long a write lasts. -/
def Blinking.gap (b : Blinking) (lit : Bool) : Nat := if lit then b.onTime else b.offTime

/-- The writes alternate, the first one with `lit`; it does not come before `time`, and
each of the others not before the one before it has lasted. -/
def Blinking.Paced (b : Blinking) : Nat → Bool → List (Nat × Bool) → Prop
  | _, _, [] => True
  | time, lit, w :: ws => w.2 = lit ∧ time ≤ w.1 ∧ b.Paced (w.1 + b.gap lit) (!lit) ws

/-- The number of writes until the lamp is idle. -/
def Lamp.left (l : Lamp) : Option Nat :=
  match l.phase with
  | .idle => some 0
  | .dark => l.current.flashes.map (2 * ·)
  | .lit => l.current.flashes.map (2 * · - 1)

section Changes

variable {l : Lamp} {acts : List (Nat × LampAct)}

theorem paced_flashes (b : Blinking) (flashes : Option Nat) {time : Nat} {lit : Bool}
    {ws : List (Nat × Bool)} :
    Blinking.Paced { b with flashes } time lit ws ↔ b.Paced time lit ws := by
  induction ws generalizing time lit with
  | nil => rfl
  | cons w ws ih =>
      rw [Blinking.Paced, Blinking.Paced, ih]
      rfl

/-- A change of a lamp for which nothing waits. -/
inductive Changed (now : Nat) (l : Lamp) (x : Logged (Nat × Bool) Lamp) : Prop
  | off (phase : l.phase = .lit)
      (result : x = ⟨{ l with
        phase := .dark
        current := { l.current with flashes := l.current.flashes.map (· - 1) }
        due := now + l.current.offTime
        earliest := now + l.current.offTime }, [(now, false)]⟩)
  | on (phase : l.phase = .dark) (left : l.current.flashes ≠ some 0)
      (result : x = ⟨{ l with
        phase := .lit
        due := now + l.current.onTime
        earliest := now + l.current.onTime }, [(now, true)]⟩)
  | done (phase : l.phase = .dark) (left : l.current.flashes = some 0)
      (result : x = ⟨{ l with phase := .idle }, []⟩)

theorem change_changed (now : Nat) (hphase : l.phase ≠ .idle) (hwaiting : l.waiting = none) :
    Changed now l (l.change now) := by
  unfold Lamp.change
  cases hlamp : l.phase with
  | idle => exact absurd hlamp hphase
  | lit => exact .off hlamp rfl
  | dark =>
      by_cases hleft : l.current.flashes = some 0
      · refine .done hlamp hleft ?_
        dsimp only
        rw [if_pos hleft, hwaiting]
        rfl
      · refine .on hlamp hleft ?_
        dsimp only
        rw [if_neg hleft]
        rfl

theorem left_succ {x y : Option Nat} {n : Nat} (h : x.map (n + ·) = y) :
    x.map (n + 1 + ·) = y.map (· + 1) := by
  subst h
  cases x with
  | none => rfl
  | some m => simp; omega

/-- A lamp that is only left to change flashes as often as it was called to, and each
flash lasts. -/
theorem changes_flash (hacts : ∀ a ∈ acts, a.2 = .change)
    (hmeets : Meets Lamp.NotEarly (unlogged Lamp.exec) l acts) (hwaiting : l.waiting = none)
    (hlit : l.phase = .lit → l.current.flashes ≠ some 0) :
    l.current.Paced l.earliest (decide (l.phase ≠ .lit)) (trace Lamp.exec l acts) ∧
      (run (unlogged Lamp.exec) l acts).left.map ((trace Lamp.exec l acts).length + ·) =
        l.left := by
  induction acts generalizing l with
  | nil => exact ⟨trivial, by simp⟩
  | cons a acts ih =>
      obtain ⟨now, act⟩ := a
      have hact : act = .change := hacts _ List.mem_cons_self
      subst hact
      obtain ⟨hphase, hearly⟩ := hmeets.1 rfl
      have hrest := fun a ha => hacts a (List.mem_cons_of_mem _ ha)
      have hmeets' := hmeets.2
      rw [trace_cons, run_cons]
      change Meets Lamp.NotEarly _ (l.change now).val acts at hmeets'
      change Blinking.Paced _ _ _ ((l.change now).log ++ trace Lamp.exec (l.change now).val acts) ∧
        (run (unlogged Lamp.exec) (l.change now).val acts).left.map
          (((l.change now).log ++ trace Lamp.exec (l.change now).val acts).length + ·) = _
      cases change_changed now hphase hwaiting with
      | off hlamp hresult =>
          rw [hresult] at hmeets' ⊢
          obtain ⟨hpaced, hleft⟩ := ih hrest hmeets' hwaiting (by simp)
          refine ⟨⟨by simp [hlamp], hearly, ?_⟩, ?_⟩
          · simpa [hlamp, Blinking.gap, paced_flashes] using hpaced
          · rw [List.singleton_append, List.length_cons, left_succ hleft, Lamp.left, Lamp.left,
              hlamp]
            have hsome := hlit hlamp
            cases hflashes : l.current.flashes with
            | none => simp
            | some n =>
                rw [hflashes, ne_eq, Option.some_inj] at hsome
                simp
                omega
      | on hlamp hflashes hresult =>
          rw [hresult] at hmeets' ⊢
          obtain ⟨hpaced, hleft⟩ := ih hrest hmeets' hwaiting (fun _ => hflashes)
          refine ⟨⟨by simp [hlamp], hearly, ?_⟩, ?_⟩
          · simpa [hlamp, Blinking.gap] using hpaced
          · rw [List.singleton_append, List.length_cons, left_succ hleft, Lamp.left, Lamp.left,
              hlamp]
            cases hsome : l.current.flashes with
            | none => simp
            | some n =>
                rw [hsome, ne_eq, Option.some_inj] at hflashes
                simp
                omega
      | done hlamp hflashes hresult =>
          rw [hresult] at hmeets' ⊢
          obtain ⟨hpaced, hleft⟩ := ih hrest hmeets' hwaiting (by simp)
          rw [hlamp]
          refine ⟨hpaced, ?_⟩
          rw [List.nil_append, hleft, Lamp.left, Lamp.left, hlamp]
          simp [hflashes]

theorem change_idle_empty (now : Nat) (h : l.phase = .idle → l.waiting = none) :
    (l.change now).val.phase = .idle → (l.change now).val.waiting = none := by
  unfold Lamp.change
  cases hphase : l.phase with
  | idle => exact fun _ => h hphase
  | lit => simp [Lamp.dueAt]
  | dark =>
      dsimp only
      split
      · split
        next hwaiting => exact fun _ => hwaiting
        next b hwaiting => simp [Lamp.dueAt]
      · simp [Lamp.dueAt]

/-- Nothing waits for an idle lamp. -/
theorem exec_idle_empty (a : Nat × LampAct) (h : l.phase = .idle → l.waiting = none) :
    (l.exec a).val.phase = .idle → (l.exec a).val.waiting = none := by
  obtain ⟨now, act⟩ := a
  cases act with
  | init activeLow => exact h
  | change => exact change_idle_empty now h
  | stop => exact fun _ => rfl
  | call nums pulse period =>
      rw [Lamp.exec]
      dsimp only
      split
      · unfold Lamp.call
        split
        · simp
        · split
          next hphase => exact fun hidle => absurd hidle hphase
          · simp [Lamp.dueAt]
      · exact h

theorem fresh_idle_empty (acts : List (Nat × LampAct)) :
    (run (unlogged Lamp.exec) .fresh acts).phase = .idle →
      (run (unlogged Lamp.exec) .fresh acts).waiting = none :=
  run_invariant (fun l : Lamp => l.phase = .idle → l.waiting = none)
    (fun a _ h => exec_idle_empty a h) (fun _ => rfl) acts

end Changes

/-! ## Flashes of an LED -/

/-- A step that is not a call for LED `i`. -/
def EbStep.Spares (i : Nat) (x : EbStep) : Prop :=
  match x with
  | easyblink j .. | stop j => j ≠ i
  | tick | daemon | init _ => True

section Calls

variable {i : Nat} {s : EbState} {x : EbStep}

theorem easyblink_init {nums : Int} {pulse period : Nat} (hinit : (s.leds i).init = true) :
    ((s.easyblink i nums pulse period).val.leds i).init = true := by
  obtain ⟨-, htime⟩ := easyblink_lamp s i nums pulse period 0 0
  cases htime with
  | starts led hstate hon hcorrect hled =>
      rw [hstate, semRelease_leds, setLed_same, hled, hinit]
  | keeps led hstate hon hcorrect hled =>
      rw [hstate, setLed_same, hled, hinit]

theorem change_init {waitTick : Nat} (hdaemon : s.daemon = .pass waitTick i) (hi : i < ebLedNums)
    (hactive : (s.leds i).active = true) (hticks : (s.leds i).ticks - waitTick ≤ 0) :
    (s.daemonStep.val.leds i).init = (s.leds i).init := by
  have hsame := switch_lamp ((s.leds i).subTicks waitTick) s.now i 0 0 hactive
  rw [daemonStep_due hdaemon hi hactive hticks, val_bind, val_pure]
  dsimp only
  rw [setLed_same, hsame.init]
  rfl

/-- An LED stays initialised. -/
theorem ebStep_init (h : s.Sound) (hi : i < ebLedNums) (x : EbStep)
    (hinit : (s.leds i).init = true) : ((x.exec s).val.leds i).init = true := by
  cases ebStep_of h hi x with
  | tick hstep =>
      rw [hstep, EbStep.exec, val_pure, tick_leds]
      exact hinit
  | rest hacts hstill hlog => rw [hstill.init, hinit]
  | change waitTick hdaemon hactive hticks hstep =>
      rw [hstep, EbStep.exec, change_init hdaemon hi hactive hticks, hinit]
  | init activeLevel hfree hstep =>
      rw [(freeLed_spec hfree).2] at hinit
      cases hinit
  | call nums pulse period hled hstep =>
      rw [hstep, EbStep.exec, if_pos hled]
      exact easyblink_init hinit
  | stop hled hstep =>
      rw [hstep, EbStep.exec, if_pos hled]
      simp [EbState.easyblinkStop, setLed_same, EbLed.off, hinit]

/-- An LED that is not called only changes. -/
theorem acts_spared (h : s.Sound) (hi : i < ebLedNums) (hinit : (s.leds i).init = true)
    (hspared : x.Spares i) : ∀ a ∈ x.acts i s, a.2 = .change := by
  cases ebStep_of h hi x with
  | tick hstep => simp [hstep, EbStep.acts]
  | rest hacts hstill hlog => simp [hacts]
  | change waitTick hdaemon hactive hticks hstep =>
      rw [hstep, acts_pass hdaemon hi hactive hticks]
      simp
  | init activeLevel hfree hstep =>
      rw [(freeLed_spec hfree).2] at hinit
      cases hinit
  | call nums pulse period hled hstep =>
      rw [hstep] at hspared
      exact absurd rfl hspared
  | stop hled hstep =>
      rw [hstep] at hspared
      exact absurd rfl hspared

theorem trace_acts_spared {xs : List EbStep} (h : s.Sound) (hi : i < ebLedNums)
    (hinit : (s.leds i).init = true) (hspared : ∀ x ∈ xs, x.Spares i) :
    ∀ a ∈ trace (acting EbStep.exec (EbStep.acts i)) s xs, a.2 = .change := by
  induction xs generalizing s with
  | nil => simp
  | cons x xs ih =>
      have hfirst := acts_spared h hi hinit (hspared x List.mem_cons_self)
      have hrest := ih (ebStep_sound h x) (ebStep_init h hi x hinit)
        fun y hy => hspared y (List.mem_cons_of_mem _ hy)
      intro a ha
      rw [trace_cons, List.mem_append] at ha
      rcases ha with ha | ha
      · exact hfirst a ha
      · exact hrest a ha

/-- The steps in which LED `i` is not called. -/
theorem spared_flash {l : Lamp} {xs : List EbStep} (h : s.Sound) (hkeeps : KeepsTime i s l)
    (hi : i < ebLedNums) (hinit : (s.leds i).init = true) (hwaiting : l.waiting = none)
    (hlit : l.phase = .lit → l.current.flashes ≠ some 0) (hspared : ∀ x ∈ xs, x.Spares i) :
    l.current.Paced l.earliest (decide (l.phase ≠ .lit)) (writesOf i (trace EbStep.exec s xs)) ∧
      ∃ l', KeepsTime i (run (unlogged EbStep.exec) s xs) l' ∧
        l'.left.map ((writesOf i (trace EbStep.exec s xs)).length + ·) = l.left := by
  have hrun := ebSteps_lamp h hkeeps hi xs
  obtain ⟨hpaced, hleft⟩ := changes_flash (trace_acts_spared h hi hinit hspared) hrun.meets
    hwaiting hlit
  have hlog : writesOf i (trace EbStep.exec s xs) = _ := hrun.log
  rw [hlog]
  exact ⟨hpaced, _, hrun.related.2, hleft⟩

/-- The lamp that a call finds idle begins at once. -/
def Lamp.begin (now : Nat) (b : Blinking) (l : Lamp) : Lamp :=
  dueAt now { l with phase := .dark, current := b }

theorem call_idle {l : Lamp} {now pulse period : Nat} {nums : Int} (hphase : l.phase = .idle)
    (hfinite : l.current.flashes ≠ none) (hle : pulse ≤ period) :
    l.exec (now, .call nums pulse period) =
      pure (l.begin now ⟨flashesOf nums, pulse, period - pulse⟩) := by
  unfold Lamp.exec Lamp.call
  dsimp only
  rw [if_pos hle, if_neg hfinite, if_neg (not_not.mpr hphase)]
  rfl

/-- The lamp of an LED that is idle and has not been left to flash for ever. -/
theorem ebRun_idle (hi : i < ebLedNums) {xs : List EbStep}
    (hidle : ((ebRun xs).leds i).active = false) (hfinite : ((ebRun xs).leds i).nums ≠ -1) :
    ∃ l, KeepsTime i (ebRun xs) l ∧ l.phase = .idle ∧ l.waiting = none ∧
      l.current.flashes ≠ none := by
  have hkeeps := (ebRun_lamp hi xs).related.2
  have hempty := fresh_idle_empty (lampActs i xs)
  generalize run (unlogged Lamp.exec) .fresh (lampActs i xs) = l at hkeeps hempty
  have hphase : l.phase = .idle := by
    rw [← hkeeps.lamp]
    simp [EbLed.lamp, EbLed.phase, hidle]
  refine ⟨l, hkeeps, hphase, hempty hphase, ?_⟩
  rw [← hkeeps.lamp]
  exact fun hnone => hfinite (flashesOf_eq_none.mp hnone)

/-- A call for such an LED writes nothing, and its lamp begins. -/
theorem easyblink_idle {l : Lamp} (nums : Int) {pulse period : Nat} (hkeeps : KeepsTime i s l)
    (hinit : (s.leds i).init = true) (hphase : l.phase = .idle)
    (hfinite : l.current.flashes ≠ none) (hle : pulse ≤ period) :
    writesOf i ((EbStep.easyblink i nums pulse period).exec s).log = [] ∧
      run (unlogged Lamp.exec) l ((EbStep.easyblink i nums pulse period).acts i s) =
        l.begin s.now ⟨flashesOf nums, pulse, period - pulse⟩ ∧
      KeepsTime i ((EbStep.easyblink i nums pulse period).exec s).val
        (l.begin s.now ⟨flashesOf nums, pulse, period - pulse⟩) := by
  have hacts : (EbStep.easyblink i nums pulse period).acts i s =
      [(s.now, .call nums pulse period)] := if_pos ⟨rfl, hinit⟩
  have hbegin : run (unlogged Lamp.exec) l ((EbStep.easyblink i nums pulse period).acts i s) =
      l.begin s.now ⟨flashesOf nums, pulse, period - pulse⟩ := by
    rw [hacts, run_cons, run_nil, unlogged, call_idle hphase hfinite hle, val_pure]
  have hcall := easyblink_lampStep hkeeps hinit nums pulse period
  refine ⟨?_, hbegin, hbegin ▸ hcall.related⟩
  have hlog := hcall.log
  rw [hacts, trace_cons, trace_nil, call_idle hphase hfinite hle] at hlog
  exact hlog

theorem ebWrites_append {before after : List EbStep}
    (hquiet : writesOf i (x.exec (ebRun before)).log = []) :
    ebWrites i (before ++ x :: after) =
      ebWrites i before ++ writesOf i (trace EbStep.exec (x.exec (ebRun before)).val after) := by
  rw [ebWrites, writesOf, trace_append, trace_cons, List.filterMap_append, List.filterMap_append]
  exact congrArg _ (congrArg (· ++ _) hquiet)

theorem ebRun_append {before after : List EbStep} : ebRun (before ++ x :: after) =
    run (unlogged EbStep.exec) (x.exec (ebRun before)).val after := run_append ..

/-- A call for an LED that is idle, when each visit is one step. -/
theorem ebRun_flashes (i : Fin ebLedNums) (before after : List EbStep) (nums : Int)
    (pulse period : Nat) (hle : pulse ≤ period) (hinit : ((ebRun before).leds i).init = true)
    (hidle : ((ebRun before).leds i).active = false)
    (hfinite : ((ebRun before).leds i).nums ≠ -1) (hspared : ∀ x ∈ after, x.Spares i) :
    ∃ ws, ebWrites i (before ++ .easyblink i nums pulse period :: after) =
        ebWrites i before ++ ws ∧
      Blinking.Paced ⟨flashesOf nums, pulse, period - pulse⟩ (ebRun before).now true ws ∧
      (nums ≠ -1 → ws.length ≤ 2 * nums.toNat) ∧
      (((ebRun (before ++ .easyblink i nums pulse period :: after)).leds i).active = false →
        nums ≠ -1 ∧ ws.length = 2 * nums.toNat) := by
  have hsound := (ebRun_lamp i.isLt before).related.1
  obtain ⟨l, hkeeps, hphase, hwaiting, hflashes⟩ := ebRun_idle i.isLt hidle hfinite
  obtain ⟨hquiet, -, hbegin⟩ := easyblink_idle nums hkeeps hinit hphase hflashes hle
  obtain ⟨hpaced, l', hkeeps', hleft⟩ := spared_flash (ebStep_sound hsound _) hbegin i.isLt
    (ebStep_init hsound i.isLt _ hinit) hwaiting (by simp [Lamp.begin, Lamp.dueAt]) hspared
  change l'.left.map _ = (flashesOf nums).map (2 * ·) at hleft
  rw [ebRun_append]
  refine ⟨_, ebWrites_append hquiet, hpaced, ?_, ?_⟩
  · intro hnums
    rw [flashesOf, if_neg hnums, Option.map_some] at hleft
    obtain ⟨m, -, hm⟩ := Option.map_eq_some_iff.mp hleft
    exact hm ▸ Nat.le_add_right ..
  · intro hdone
    have hphase' : l'.phase = .idle := by
      rw [← hkeeps'.lamp]
      simp [EbLed.lamp, EbLed.phase, hdone]
    rw [Lamp.left, hphase'] at hleft
    by_cases hnums : nums = -1
    · rw [flashesOf, if_pos hnums] at hleft
      cases hleft
    · rw [flashesOf, if_neg hnums] at hleft
      exact ⟨hnums, by simpa using hleft⟩

/-- A call for an LED that is idle and has not been left to flash for ever is followed by
so many flashes and no more. None begins before the call, each is on for at least
`pulse` and the LED is off for at least `period - pulse` between them, whatever the
other LED does, as long as no call interrupts a visit. -/
theorem easyblink_flashes (i : Fin ebLedNums) (before after : List EbStep) (nums : Int)
    (pulse period : Nat) (hle : pulse ≤ period)
    (hmeets : Meets EbStep.Uninterrupting (unlogged EbSystem.exec) .init
      (before ++ .easyblink i nums pulse period :: after))
    (hinit : ((ebSystem before).state.leds i).init = true)
    (hidle : ((ebSystem before).state.leds i).active = false)
    (hfinite : ((ebSystem before).state.leds i).nums ≠ -1) (hspared : ∀ x ∈ after, x.Spares i) :
    ∃ ws, statementWrites i (before ++ .easyblink i nums pulse period :: after) =
        statementWrites i before ++ ws ∧
      Blinking.Paced ⟨flashesOf nums, pulse, period - pulse⟩ (ebSystem before).state.now true ws ∧
      (nums ≠ -1 → ws.length ≤ 2 * nums.toNat) ∧
      (¬ (ebSystem (before ++ .easyblink i nums pulse period :: after)).Visits i →
        ((ebSystem (before ++ .easyblink i nums pulse period :: after)).state.leds i).active =
          false → nums ≠ -1 ∧ ws.length = 2 * nums.toNat) := by
  obtain ⟨hbefore, hbetween, hafter⟩ := (meets_append _ _).mp hmeets
  obtain ⟨ys, hys⟩ := sameRun_init hbefore
  have hstate : ebRun ys = (ebSystem before).state := hys.related.eq hbetween
  have hcall : SameRun (fun _ _ => True) (ebSystem before) (ebRun ys)
      [.easyblink i nums pulse period] [.easyblink i nums pulse period] := by
    rw [hstate]
    exact sameRun_easyblink hbetween trivial
  obtain ⟨zs, hzs⟩ := sameRun (fun _ _ _ _ hx => ⟨hx, trivial⟩) hcall.related hafter
  have hall : SameRun (fun _ _ => True) .init .init
      (before ++ .easyblink i nums pulse period :: after)
      (ys ++ .easyblink i nums pulse period :: zs) := hys.append (hcall.append hzs)
  rw [← hstate] at hinit hidle hfinite ⊢
  rw [← hall.writes, ← hys.writes]
  obtain ⟨ws, hws, hpaced, hlength, hleft⟩ := ebRun_flashes i ys zs nums pulse period hle hinit
    hidle hfinite fun x hx => hspared x (hzs.sublist.subset hx)
  refine ⟨ws, hws, hpaced, hlength, fun hbetween hactive => hleft ?_⟩
  rw [hall.led hbetween]
  exact hactive

/-- The beeper of the car, called before the daemon has run. -/
theorem easyblink_flashes_beeper :
    ∃ ws, statementWrites 1 ([.init .low, .init .high] ++
        .easyblink 1 2 50 200 :: [.daemon, .tick, .daemon, .tick, .daemon]) =
        statementWrites 1 [.init .low, .init .high] ++ ws ∧
      Blinking.Paced ⟨some 2, 50, 150⟩ 0 true ws ∧ ws.length ≤ 4 := by
  obtain ⟨ws, hws, hpaced, hlength, -⟩ := easyblink_flashes ⟨1, by decide⟩
    [.init .low, .init .high] [.daemon, .tick, .daemon, .tick, .daemon] 2 50 200 (by decide)
    (by decide +kernel) (by decide) (by decide) (by decide) (by simp [EbStep.Spares])
  exact ⟨ws, hws, hpaced, hlength (by decide)⟩

end Calls

/-! ## Light -/

/-- What is written about an LED shows its phase; `n` is the number of writes. Its
initialisation leaves an LED that is active low lit. -/
structure Shows (led : EbLed) (n : Nat) : Prop where
  fresh : led.init = false → n = 0 ∧ led.activeLevel = .low ∧ led.pin = .low
  written : led.init = true → 2 ≤ n
  lit : led.Lit ↔ led.phase = .lit ∨ led.activeLevel = .low ∧ n ≤ 2

section Light

variable {i n : Nat} {s : EbState} {led led' : EbLed}

/-- A write that shows the phase. -/
theorem Shows.write {m : Nat} (h : Shows led n) (hinit : led.init = true)
    (hinit' : led'.init = true) (hm : 0 < m) (hlit : led'.Lit ↔ led'.phase = .lit) :
    Shows led' (n + m) := by
  have hwritten := h.written hinit
  refine ⟨fun hfresh => ?_, fun _ => by omega, ?_⟩
  · rw [hinit'] at hfresh
    cases hfresh
  · have hmany : ¬ n + m ≤ 2 := by omega
    simp [hlit, hmany]

/-- A step without a write. -/
theorem Shows.keep (h : Shows led n) (hinit : led'.init = led.init)
    (hlevel : led'.activeLevel = led.activeLevel) (hpin : led'.pin = led.pin)
    (hphase : led'.phase = .lit ↔ led.phase = .lit) : Shows led' n := by
  refine ⟨?_, ?_, ?_⟩
  · rw [hinit, hlevel, hpin]
    exact h.fresh
  · rw [hinit]
    exact h.written
  · rw [EbLed.Lit, hpin, hlevel, hphase]
    exact h.lit

theorem phase_lit : led.phase = .lit ↔ led.active = true ∧ led.shouldOn = false := by
  unfold EbLed.phase
  cases led.active with
  | false => simp
  | true => cases led.shouldOn with
    | false => simp
    | true => simp

theorem Shows.switch (h : Shows led n) (now i : Nat) (hinit : led.init = true)
    (hactive : led.active = true) :
    Shows (led.switch now i).val (n + (led.switch now i).log.length) := by
  unfold EbLed.switch
  cases hshould : led.shouldOn with
  | false =>
      refine h.write hinit hinit (Nat.succ_pos _) ?_
      rw [phase_lit]
      exact iff_of_false (off_not_lit led) (by simp)
  | true =>
      rw [if_pos rfl]
      by_cases hleft : led.nums > 0 ∨ led.nums = -1
      · rw [if_pos hleft]
        refine h.write hinit hinit (Nat.succ_pos _) ?_
        rw [phase_lit]
        exact iff_of_true (on_lit led) ⟨hactive, rfl⟩
      · rw [if_neg hleft]
        by_cases hbak : led.pulseBak ≠ 0
        · rw [if_pos hbak]
          refine h.keep rfl rfl rfl ?_
          simp [phase_lit, hshould]
        · rw [if_neg hbak]
          refine h.keep rfl rfl rfl ?_
          simp [phase_lit, hshould]

theorem Shows.easyblink (h : Shows (s.leds i) n) (hinit : (s.leds i).init = true) (nums : Int)
    (pulse period : Nat) : Shows ((s.easyblink i nums pulse period).val.leds i)
      (n + (s.easyblink i nums pulse period).log.length) := by
  unfold EbState.easyblink
  dsimp only
  by_cases hle : pulse ≤ period
  · rw [if_pos hle]
    by_cases hforever : (s.leds i).nums = -1
    · rw [if_pos hforever, val_bind, val_pure, semRelease_leds, setLed_same]
      refine h.write hinit hinit (Nat.succ_pos _) ?_
      rw [phase_lit]
      refine iff_of_false (off_not_lit (s.leds i)) ?_
      simp [EbLed.blinkDelay]
    · rw [if_neg hforever]
      by_cases hactive : (s.leds i).active = true
      · rw [if_pos hactive, val_pure, setLed_same]
        exact h.keep rfl rfl rfl Iff.rfl
      · rw [if_neg hactive, val_pure, semRelease_leds, setLed_same]
        refine h.keep rfl rfl rfl ?_
        simp [phase_lit, EbLed.blinkDelay, hactive]
  · rw [if_neg hle]
    exact h

theorem Shows.stop (h : Shows (s.leds i) n) (hinit : (s.leds i).init = true) :
    Shows ((s.easyblinkStop i).val.leds i) (n + (s.easyblinkStop i).log.length) := by
  rw [EbState.easyblinkStop, val_bind, val_pure, setLed_same]
  refine h.write hinit hinit (Nat.succ_pos _) ?_
  rw [phase_lit]
  exact iff_of_false (off_not_lit (s.leds i)) (by simp)

theorem initLed_led (hfree : s.freeLed = some i) (activeLevel : PinLevel) :
    (s.initLed activeLevel).val.leds i =
        { s.leds i with init := true, activeLevel, pin := .low } ∧
      (s.initLed activeLevel).log.length = 2 := by
  unfold EbState.initLed
  rw [hfree]
  refine ⟨?_, rfl⟩
  rw [val_bind, val_bind, val_pure]
  split
  · exact setLed_same
  · exact setLed_same

/-- `rt_pin_mode` leaves the pin low. -/
theorem Shows.initLed (h : Shows (s.leds i) n) (hsound : s.Sound) (hfree : s.freeLed = some i)
    (activeLevel : PinLevel) : Shows ((s.initLed activeLevel).val.leds i)
      (n + (s.initLed activeLevel).log.length) := by
  obtain ⟨hled, hlog⟩ := initLed_led hfree activeLevel
  obtain ⟨hnone, -, -⟩ := h.fresh (freeLed_spec hfree).2
  have hidle := hsound.idle_of_free hfree
  rw [hled, hlog, hnone]
  refine ⟨by simp, fun _ => Nat.le_refl 2, ?_⟩
  rw [phase_lit]
  simp only [EbLed.Lit, hidle, Bool.false_eq_true, false_and, false_or]
  exact ⟨fun hlevel => ⟨hlevel.symm, Nat.le_refl 2⟩, fun hlevel => hlevel.1.symm⟩

theorem Shows.change {waitTick : Nat} (h : Shows (s.leds i) n) (hinit : (s.leds i).init = true)
    (hdaemon : s.daemon = .pass waitTick i) (hi : i < ebLedNums)
    (hactive : (s.leds i).active = true) (hticks : (s.leds i).ticks - waitTick ≤ 0) :
    Shows (s.daemonStep.val.leds i) (n + s.daemonStep.log.length) := by
  have hvisit : Shows ((s.leds i).subTicks waitTick) n := h.keep rfl rfl rfl Iff.rfl
  rw [daemonStep_due hdaemon hi hactive hticks, val_bind, log_bind, val_pure, log_pure,
    List.append_nil]
  dsimp only
  rw [setLed_same]
  exact hvisit.switch s.now i hinit hactive

theorem writesOf_length {log : List EbWrite} (hown : ∀ w ∈ log, w.led = i) :
    (writesOf i log).length = log.length := by
  rw [writesOf_own hown, List.length_map]

theorem Shows.step (h : Shows (s.leds i) n) (hsound : s.Sound) (hi : i < ebLedNums) (x : EbStep) :
    Shows ((x.exec s).val.leds i) (n + (writesOf i (x.exec s).log).length) := by
  cases ebStep_of hsound hi x with
  | tick hstep =>
      rw [hstep, EbStep.exec, val_pure, tick_leds]
      exact h
  | rest hacts hstill hlog =>
      obtain ⟨ticks, correct, hled⟩ := hstill.led
      rw [hled, hlog]
      exact h.keep rfl rfl rfl Iff.rfl
  | change waitTick hdaemon hactive hticks hstep =>
      have hown : ∀ w ∈ s.daemonStep.log, w.led = i := by
        rw [daemonStep_due hdaemon hi hactive hticks, log_bind, log_pure, List.append_nil]
        exact (switch_lamp ((s.leds i).subTicks waitTick) s.now i 0 0 hactive).own
      rw [hstep, EbStep.exec, writesOf_length hown]
      exact h.change (hsound.called i hactive) hdaemon hi hactive hticks
  | init activeLevel hfree hstep =>
      rw [hstep, EbStep.exec, writesOf_length (initLed_lamp hfree activeLevel 0 0).own]
      exact h.initLed hsound hfree activeLevel
  | call nums pulse period hinit hstep =>
      rw [hstep, EbStep.exec, if_pos hinit,
        writesOf_length (easyblink_lamp s i nums pulse period 0 0).1.own]
      exact h.easyblink hinit nums pulse period
  | stop hinit hstep =>
      rw [hstep, EbStep.exec, if_pos hinit, writesOf_length (easyblinkStop_lamp s i 0 0).own]
      exact h.stop hinit

theorem ebRun_lit (i : Fin ebLedNums) (xs : List EbStep) :
    ((ebRun xs).leds i).Lit ↔ ((ebRun xs).leds i).phase = .lit ∨
      ((ebRun xs).leds i).activeLevel = .low ∧ (ebWrites i xs).length ≤ 2 := by
  have hrun : (ebRun xs).Sound ∧ Shows ((ebRun xs).leds i) (ebWrites i xs).length := by
    refine trace_invariant (fun log (s : EbState) =>
      s.Sound ∧ Shows (s.leds i) (writesOf i log).length) ?_ ?_ xs
    · rintro log x s ⟨hsound, hshows⟩
      refine ⟨ebStep_sound hsound x, ?_⟩
      rw [writesOf, List.filterMap_append, List.length_append]
      exact hshows.step hsound i.isLt x
    · exact ⟨init_sound, fun _ => ⟨rfl, rfl, rfl⟩, by simp [EbState.init],
        iff_of_true rfl (.inr ⟨rfl, Nat.zero_le 2⟩)⟩
  exact hrun.2.lit

/-- As long as no call interrupts a visit: an LED that is not just visited is lit in its
lit phase only, save that one that is active low is lit from its initialisation until its
pin is written again. -/
theorem led_lit (i : Fin ebLedNums) (xs : List EbStep)
    (hmeets : Meets EbStep.Uninterrupting (unlogged EbSystem.exec) .init xs)
    (hbetween : ¬ (ebSystem xs).Visits i) :
    ((ebSystem xs).state.leds i).Lit ↔ ((ebSystem xs).state.leds i).phase = .lit ∨
      ((ebSystem xs).state.leds i).activeLevel = .low ∧ (statementWrites i xs).length ≤ 2 := by
  obtain ⟨ys, hys⟩ := sameRun_init hmeets
  rw [← hys.led hbetween, ← hys.writes]
  exact ebRun_lit i ys

/-- The steps of a beep until the daemon has gone through the LEDs. -/
def firstBeep : List EbStep :=
  [.init .low, .init .high, .easyblink 1 2 50 200] ++ List.replicate 20 .daemon

/-- The beeper sounds, and its record says so. -/
theorem led_lit_beeper : ((ebSystem firstBeep).state.leds 1).phase = .lit := by
  have hlit := led_lit ⟨1, by decide⟩ firstBeep (by decide +kernel) (by decide +kernel)
  have hsounds : ((ebSystem firstBeep).state.leds 1).Lit := by decide +kernel
  have hhigh : ((ebSystem firstBeep).state.leds 1).activeLevel ≠ .low := by decide +kernel
  exact (hlit.mp hsounds).resolve_right fun hlow => hhigh hlow.1

end Light

end SmartCar
