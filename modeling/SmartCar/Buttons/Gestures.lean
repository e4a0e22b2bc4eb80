import Mathlib.Data.List.Chain
import SmartCar.Buttons.Button

/-!
# Gestures

What a button calls back between its start and its stop, whatever its pin reads,
however late the rounds come and whatever is set in between: one press after the
other, each from its down to its click, and at the end perhaps a press that still
lasts.
-/

namespace SmartCar

open Imperative Logged

/-! ## Rounds -/

/-- What a round does, by the state of the button. -/
inductive BtnRound (p : BtnPoll) (btn : AgileBtn) : List BtnSignal → AgileBtn → Prop
  | rest : btn.state = .nonePress → p.level ≠ btn.activeLogic →
      ¬ (btn.repeatCnt ≠ 0 ∧ btn.TimedOut p.now) → BtnRound p btn [] btn
  | forget : btn.state = .nonePress → p.level ≠ btn.activeLogic → btn.repeatCnt ≠ 0 →
      btn.TimedOut p.now → BtnRound p btn [] { btn with repeatCnt := 0 }
  | notice : btn.state = .nonePress → p.level = btn.activeLogic → BtnRound p btn []
      { btn with
        tickTimeout := rtTickGet p.now + rtTickFromMillisecond btn.eliminationTime.toUInt32.toInt32
        state := .checkPress }
  | bounce : btn.state = .checkPress → p.level ≠ btn.activeLogic →
      BtnRound p btn [] { btn with state := .nonePress }
  | await : btn.state = .checkPress → p.level = btn.activeLogic → ¬ btn.TimedOut p.now →
      BtnRound p btn [] btn
  | confirm : btn.state = .checkPress → p.level = btn.activeLogic → btn.TimedOut p.now →
      BtnRound p btn [] { btn with state := .pressDown }
  | down : btn.state = .pressDown → BtnRound p btn
      [⟨.pressDown, btn.eventCb .pressDown, btn.pin, btn.repeatCnt + 1, 0⟩]
      { btn with
        holdTime := 0
        prevHoldTime := 0
        repeatCnt := btn.repeatCnt + 1
        event := .pressDown
        tickTimeout := rtTickGet p.now
        state := .pressHold }
  | keep : btn.state = .pressHold → p.level = btn.activeLogic →
      ¬ (btn.calHoldTime p).holdTime - btn.prevHoldTime ≥ btn.holdCycleTime →
      BtnRound p btn [] (btn.calHoldTime p)
  | cycle : btn.state = .pressHold → p.level = btn.activeLogic →
      (btn.calHoldTime p).holdTime - btn.prevHoldTime ≥ btn.holdCycleTime →
      BtnRound p btn
        [⟨.hold, btn.eventCb .hold, btn.pin, btn.repeatCnt, (btn.calHoldTime p).holdTime⟩]
        { btn.calHoldTime p with event := .hold, prevHoldTime := (btn.calHoldTime p).holdTime }
  | release : btn.state = .pressHold → p.level ≠ btn.activeLogic →
      BtnRound p btn [] { btn with state := .pressUp }
  | up : btn.state = .pressUp → BtnRound p btn
      [⟨.pressUp, btn.eventCb .pressUp, btn.pin, btn.repeatCnt, btn.holdTime⟩,
        ⟨.click, btn.eventCb .click, btn.pin, btn.repeatCnt, btn.holdTime⟩]
      { btn with
        event := .click
        tickTimeout := rtTickGet p.now + rtTickFromMillisecond twoIntervalTime
        state := .nonePress }

theorem process_round (p : BtnPoll) (btn : AgileBtn) :
    BtnRound p btn (btn.process p).log (btn.process p).val := by
  unfold AgileBtn.process
  split
  next hstate =>
    split
    next hlevel => exact .notice hstate hlevel
    next hlevel =>
      split
      next hforget => exact .forget hstate hlevel hforget.1 hforget.2
      next hrest => exact .rest hstate hlevel hrest
  next hstate =>
    split
    next hlevel =>
      split
      next htimeout => exact .confirm hstate hlevel htimeout
      next htimeout => exact .await hstate hlevel htimeout
    next hlevel => exact .bounce hstate hlevel
  next hstate => exact .down hstate
  next hstate =>
    split
    next hlevel =>
      dsimp only
      split
      next hcycle => exact .cycle hstate hlevel hcycle
      next hcycle => exact .keep hstate hlevel hcycle
    next hlevel => exact .release hstate hlevel
  next hstate => exact .up hstate

/-! ## Steps -/

/-- What happens to a button between its start and its stop. -/
inductive BtnStep where
  | round (p : BtnPoll)
  | setEliminationTime (ms : UInt8)
  | setHoldCycleTime (ms : UInt32)
  | setEventCb (event : AgileBtnEvent) (cb : Option BtnCallback)

namespace BtnStep

def exec : BtnStep → AgileBtn → Logged BtnSignal AgileBtn
  | round p, btn => btn.process p
  | setEliminationTime ms, btn => return btn.setEliminationTime ms
  | setHoldCycleTime ms, btn => return btn.setHoldCycleTime ms
  | setEventCb event cb, btn => return (btn.setEventCb event cb).getD btn

end BtnStep

/-- The signals of a button that `agile_btn_start` has started, in order. -/
def btnSignals (btn : AgileBtn) (now : Nat) (steps : List BtnStep) : List BtnSignal :=
  trace BtnStep.exec (btn.start now) steps

/-! ## Presses -/

def BtnSignal.mark (s : BtnSignal) : AgileBtnEvent × UInt8 := (s.event, s.repeatCnt)

/-- A press with its repeat count, for which the button is called back `holds` times
while it is held. -/
structure Press where
  repeatCnt : UInt8
  holds : Nat

namespace Press

/-- A press that lasts. -/
def down (p : Press) : List (AgileBtnEvent × UInt8) :=
  (.pressDown, p.repeatCnt) :: List.replicate p.holds (.hold, p.repeatCnt)

def whole (p : Press) : List (AgileBtnEvent × UInt8) :=
  p.down ++ [(.pressUp, p.repeatCnt), (.click, p.repeatCnt)]

/-- A press counts on from the one before it or starts again at 1. -/
def Counted (presses : List Press) : Prop :=
  (0 :: presses.map Press.repeatCnt).IsChain fun a b => b = a + 1 ∨ b = 1

def lastCount (presses : List Press) : UInt8 := ((presses.map Press.repeatCnt).getLast?).getD 0

theorem counted_concat {presses : List Press} {p : Press} : Counted (presses ++ [p]) ↔
    Counted presses ∧ (p.repeatCnt = lastCount presses + 1 ∨ p.repeatCnt = 1) := by
  unfold Counted lastCount
  rw [List.map_append, ← List.cons_append, List.isChain_append]
  simp [List.getLast?_cons]

theorem down_hold (p : Press) :
    { p with holds := p.holds + 1 }.down = p.down ++ [(.hold, p.repeatCnt)] := by
  simp [down, List.replicate_succ']

end Press

/-- The presses that are over and the one that lasts, if there is one. -/
structure Pressed (marks : List (AgileBtnEvent × UInt8)) (past : List Press) (last : Option Press) :
    Prop where
  marks : marks = past.flatMap Press.whole ++ last.elim [] Press.down
  counted : Press.Counted (past ++ last.toList)

/-- No press lasts. -/
def AllOver (log : List BtnSignal) (repeatCnt : UInt8) : Prop :=
  ∃ past, Pressed (log.map BtnSignal.mark) past none ∧
    (repeatCnt = 0 ∨ repeatCnt = Press.lastCount past)

/-- The press that lasts is counted by `repeat_cnt`. -/
def OneLasts (log : List BtnSignal) (repeatCnt : UInt8) : Prop :=
  ∃ past p, Pressed (log.map BtnSignal.mark) past (some p) ∧ repeatCnt = p.repeatCnt

/-- What a button in its state has called back. -/
def GesturesOf (log : List BtnSignal) (btn : AgileBtn) : Prop :=
  match btn.state with
  | .nonePress | .checkPress | .pressDown => AllOver log btn.repeatCnt
  | .pressHold | .pressUp => OneLasts log btn.repeatCnt

section Presses

variable {log : List BtnSignal} {repeatCnt : UInt8} {s : BtnSignal}

theorem allOver_nil : AllOver [] 0 := ⟨[], ⟨rfl, by simp [Press.Counted]⟩, .inl rfl⟩

theorem AllOver.forget (h : AllOver log repeatCnt) : AllOver log 0 := by
  obtain ⟨past, hpast, -⟩ := h
  exact ⟨past, hpast, .inl rfl⟩

theorem AllOver.down (h : AllOver log repeatCnt) (hs : s.mark = (.pressDown, repeatCnt + 1)) :
    OneLasts (log ++ [s]) (repeatCnt + 1) := by
  obtain ⟨past, ⟨hmarks, hcounted⟩, hcount⟩ := h
  rw [Option.toList_none, List.append_nil] at hcounted
  refine ⟨past, ⟨repeatCnt + 1, 0⟩, ⟨?_, ?_⟩, rfl⟩
  · rw [List.map_append, hmarks, List.map_singleton, hs]
    simp [Press.down]
  · refine Press.counted_concat.mpr ⟨hcounted, ?_⟩
    rcases hcount with rfl | rfl
    · exact .inr rfl
    · exact .inl rfl

theorem OneLasts.hold (h : OneLasts log repeatCnt) (hs : s.mark = (.hold, repeatCnt)) :
    OneLasts (log ++ [s]) repeatCnt := by
  obtain ⟨past, p, ⟨hmarks, hcounted⟩, rfl⟩ := h
  refine ⟨past, { p with holds := p.holds + 1 }, ⟨?_, ?_⟩, rfl⟩
  · rw [List.map_append, hmarks, List.map_singleton, hs, Option.elim_some, Option.elim_some,
      Press.down_hold, List.append_assoc]
  · obtain ⟨hpast, hnext⟩ := Press.counted_concat.mp hcounted
    exact Press.counted_concat.mpr ⟨hpast, hnext⟩

theorem OneLasts.up {t : BtnSignal} (h : OneLasts log repeatCnt)
    (hs : s.mark = (.pressUp, repeatCnt)) (ht : t.mark = (.click, repeatCnt)) :
    AllOver (log ++ [s, t]) repeatCnt := by
  obtain ⟨past, p, ⟨hmarks, hcounted⟩, rfl⟩ := h
  refine ⟨past ++ [p], ⟨?_, ?_⟩, .inr ?_⟩
  · rw [List.map_append, hmarks]
    simp [hs, ht, Press.whole]
  · simpa using hcounted
  · simp [Press.lastCount]

end Presses

/-! ## Runs -/

section Runs

variable {log : List BtnSignal} {btn : AgileBtn}

theorem GesturesOf.round {p : BtnPoll} {signals : List BtnSignal} {btn' : AgileBtn}
    (h : GesturesOf log btn) (hround : BtnRound p btn signals btn') :
    GesturesOf (log ++ signals) btn' := by
  cases hround with
  | rest hstate hlevel hforget => simpa using h
  | forget hstate hlevel hcount htimeout =>
      rw [GesturesOf, hstate] at h
      rw [List.append_nil, GesturesOf, hstate]
      exact h.forget
  | notice hstate hlevel | bounce hstate hlevel | confirm hstate hlevel htimeout =>
      rw [GesturesOf, hstate] at h
      rw [List.append_nil]
      exact h
  | await hstate hlevel htimeout => simpa using h
  | down hstate =>
      rw [GesturesOf, hstate] at h
      exact h.down rfl
  | keep hstate hlevel hcycle =>
      rw [List.append_nil]
      exact h
  | cycle hstate hlevel hcycle =>
      rw [GesturesOf, hstate] at h
      rw [GesturesOf, show (btn.calHoldTime p).state = .pressHold from hstate]
      exact h.hold rfl
  | release hstate hlevel =>
      rw [GesturesOf, hstate] at h
      rw [List.append_nil]
      exact h
  | up hstate =>
      rw [GesturesOf, hstate] at h
      exact h.up rfl rfl

theorem AgileBtn.getD_setEventCb (btn : AgileBtn) (event : AgileBtnEvent)
    (cb : Option BtnCallback) :
    ∃ eventCb, (btn.setEventCb event cb).getD btn = { btn with eventCb } := by
  unfold AgileBtn.setEventCb
  split
  · exact ⟨btn.eventCb, rfl⟩
  · exact ⟨_, rfl⟩

theorem GesturesOf.step (h : GesturesOf log btn) (x : BtnStep) :
    GesturesOf (log ++ (x.exec btn).log) (x.exec btn).val := by
  cases x with
  | round p => exact h.round (process_round p btn)
  | setEliminationTime ms | setHoldCycleTime ms =>
      rw [BtnStep.exec, log_pure, List.append_nil]
      exact h
  | setEventCb event cb =>
      obtain ⟨eventCb, heq⟩ := btn.getD_setEventCb event cb
      rw [BtnStep.exec, log_pure, List.append_nil, val_pure, heq]
      exact h

theorem GesturesOf.pressed (h : GesturesOf log btn) :
    ∃ past last, Pressed (log.map BtnSignal.mark) past last := by
  unfold GesturesOf at h
  split at h
  · obtain ⟨past, hpast, -⟩ := h
    exact ⟨past, none, hpast⟩
  · obtain ⟨past, hpast, -⟩ := h
    exact ⟨past, none, hpast⟩
  · obtain ⟨past, hpast, -⟩ := h
    exact ⟨past, none, hpast⟩
  · obtain ⟨past, p, hpast, -⟩ := h
    exact ⟨past, some p, hpast⟩
  · obtain ⟨past, p, hpast, -⟩ := h
    exact ⟨past, some p, hpast⟩

theorem gesturesOf_btnSignals (btn : AgileBtn) (now : Nat) (steps : List BtnStep) :
    GesturesOf (btnSignals btn now steps) (run (unlogged BtnStep.exec) (btn.start now) steps) :=
  trace_invariant (s := btn.start now) GesturesOf (fun _ x _ h => h.step x) allOver_nil steps

/-- From its start on a button signals press after press, whether a callback is set or
not, each with one repeat count; modulo 256, each count goes on from that of the press
before or starts again. -/
theorem btnSignals_pressed (btn : AgileBtn) (now : Nat) (steps : List BtnStep) :
    ∃ past last, Pressed ((btnSignals btn now steps).map BtnSignal.mark) past last :=
  (gesturesOf_btnSignals btn now steps).pressed

end Runs

end SmartCar
