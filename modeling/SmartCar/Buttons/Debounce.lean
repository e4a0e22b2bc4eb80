import SmartCar.Buttons.Gestures

/-!
# Debouncing

A button is called pressed only after its contact has been closed for
`elimination_time`, which the thread knows from a tick that wraps around: the
timeout lies at most 255 ticks ahead, and a tick that has not reached it is far
from it in the other direction.
-/

namespace SmartCar

open Imperative Logged

/-! ## The timeout -/

section Timeout

variable {btn : AgileBtn} {now since : Nat}

/-- The tick `elimination_time` after the contact was seen closed. -/
theorem tick_add_elimination (now : Nat) (ms : UInt8) :
    rtTickGet now + rtTickFromMillisecond ms.toUInt32.toInt32 = rtTickGet (now + ms.toNat) := by
  have hsmall : 0 ≤ ms.toUInt32.toInt32 := by
    have hlt := ms.toNat_lt
    have hnat : 2 * ms.toUInt32.toBitVec.toNat < 2 ^ 32 := by
      change 2 * ms.toUInt32.toNat < 2 ^ 32
      rw [UInt8.toNat_toUInt32]
      omega
    rw [Int32.le_iff_toInt_le]
    change 0 ≤ ms.toUInt32.toBitVec.toInt
    rw [BitVec.toInt_eq_toNat_of_lt hnat]
    exact Int.natCast_nonneg _
  rw [rtTickFromMillisecond_eq hsmall, UInt32.toUInt32_toInt32, rtTickGet, rtTickGet,
    UInt32.ofNat_add]
  congr 1
  rw [← UInt32.toNat_inj, UInt8.toNat_toUInt32, UInt32.toNat_ofNat']
  have hlt := ms.toNat_lt
  omega

theorem timedOut_iff (now : Nat) (btn : AgileBtn) :
    btn.TimedOut now ↔ (rtTickGet now - btn.tickTimeout).toNat < 2 ^ 31 - 1 := by
  rw [AgileBtn.TimedOut, UInt32.lt_iff_toNat_lt]
  rfl

/-- A tick that has not reached a timeout close ahead is not past it. -/
theorem not_timedOut_of_lt (h : btn.tickTimeout = rtTickGet since) (hlt : now < since)
    (hnear : since ≤ now + 2 ^ 31) : ¬ btn.TimedOut now := by
  rw [timedOut_iff, h, rtTickGet, rtTickGet, UInt32.toNat_sub, UInt32.toNat_ofNat',
    UInt32.toNat_ofNat']
  omega

theorem timedOut_of_le (h : btn.tickTimeout = rtTickGet since) (hle : since ≤ now)
    (hnear : now < since + (2 ^ 31 - 1)) : btn.TimedOut now := by
  rw [timedOut_iff, h, rtTickGet, rtTickGet, UInt32.toNat_sub, UInt32.toNat_ofNat',
    UInt32.toNat_ofNat']
  omega

end Timeout

/-! ## What a press is made of -/

def BtnStep.poll? : BtnStep → Option BtnPoll
  | .round p => some p
  | _ => none

/-- The rounds among the steps. -/
def polls (steps : List BtnStep) : List BtnPoll := steps.filterMap BtnStep.poll?

@[simp] theorem polls_round (p : BtnPoll) (steps : List BtnStep) :
    polls (.round p :: steps) = p :: polls steps := rfl

@[simp] theorem polls_append (xs ys : List BtnStep) : polls (xs ++ ys) = polls xs ++ polls ys :=
  List.filterMap_append

/-- Time does not run backwards from round to round. -/
def Clocked (steps : List BtnStep) : Prop :=
  (polls steps).Pairwise fun p q => p.now ≤ q.now

/-- Every round since `q` has seen the contact closed, `q` among them. -/
structure ClosedSince (btn : AgileBtn) (steps before : List BtnStep) (q : BtnPoll)
    (since : List BtnStep) : Prop where
  split : steps = before ++ .round q :: since
  closed : ∀ p ∈ q :: polls since, p.level = btn.activeLogic

/-- The steps end with the contact closed for the elimination time that was set when
it was first seen closed. -/
def Debounced (btn : AgileBtn) (steps : List BtnStep) : Prop :=
  ∃ before q since, ClosedSince btn steps before q since ∧ ∃ r ∈ polls since,
    q.now + (run (unlogged BtnStep.exec) btn before).eliminationTime.toNat ≤ r.now

/-- What the state of a button says about the steps so far. -/
def DebounceInv (start : AgileBtn) (steps : List BtnStep) (btn : AgileBtn) : Prop :=
  btn.activeLogic = start.activeLogic ∧
    match btn.state with
    | .checkPress => ∃ before q since, ClosedSince start steps before q since ∧
        btn.tickTimeout = rtTickGet (q.now +
          (run (unlogged BtnStep.exec) start before).eliminationTime.toNat)
    | .pressDown => Debounced start steps
    | _ => True

section Runs

variable {start btn btn' : AgileBtn} {steps before since : List BtnStep} {p q : BtnPoll}
  {signals : List BtnSignal}

theorem ClosedSince.setting (h : ClosedSince start steps before q since) {x : BtnStep}
    (hx : x.poll? = none) : ClosedSince start (steps ++ [x]) before q (since ++ [x]) where
  split := by simp [h.split]
  closed := by
    have hnone : polls [x] = [] := by simp [polls, hx]
    rw [polls_append, hnone, List.append_nil]
    exact h.closed

theorem ClosedSince.round (h : ClosedSince start steps before q since)
    (hlevel : p.level = start.activeLogic) :
    ClosedSince start (steps ++ [.round p]) before q (since ++ [.round p]) where
  split := by simp [h.split]
  closed := by
    intro r hr
    rw [polls_append, ← List.cons_append, List.mem_append] at hr
    rcases hr with hearlier | hlast
    · exact h.closed r hearlier
    · rw [List.mem_singleton.mp hlast]
      exact hlevel

theorem Debounced.setting (h : Debounced start steps) {x : BtnStep} (hx : x.poll? = none) :
    Debounced start (steps ++ [x]) := by
  obtain ⟨before, q, since, hclosed, r, hr, hlate⟩ := h
  refine ⟨before, q, since ++ [x], hclosed.setting hx, r, ?_, hlate⟩
  exact (polls_append _ _).symm ▸ List.mem_append_left _ hr

theorem activeLogic_round (h : BtnRound p btn signals btn') :
    btn'.activeLogic = btn.activeLogic := by
  cases h <;> rfl

theorem BtnStep.activeLogic_setting {x : BtnStep} (hx : x.poll? = none) (btn : AgileBtn) :
    (x.exec btn).val.activeLogic = btn.activeLogic ∧ (x.exec btn).val.state = btn.state ∧
      (x.exec btn).val.tickTimeout = btn.tickTimeout := by
  cases x with
  | round p => cases hx
  | setEliminationTime ms | setHoldCycleTime ms => exact ⟨rfl, rfl, rfl⟩
  | setEventCb event cb =>
      obtain ⟨eventCb, heq⟩ := btn.getD_setEventCb event cb
      rw [BtnStep.exec, val_pure, heq]
      exact ⟨rfl, rfl, rfl⟩

theorem DebounceInv.setting (h : DebounceInv start steps btn) {x : BtnStep}
    (hx : x.poll? = none) : DebounceInv start (steps ++ [x]) (x.exec btn).val := by
  obtain ⟨hlogic, hstate⟩ := h
  obtain ⟨hlogic', hstate', htimeout'⟩ := BtnStep.activeLogic_setting hx btn
  refine ⟨hlogic'.trans hlogic, ?_⟩
  rw [hstate', htimeout']
  split at hstate
  next =>
    obtain ⟨before, q, since, hclosed, htimeout⟩ := hstate
    exact ⟨before, q, since ++ [x], hclosed.setting hx, htimeout⟩
  next => exact hstate.setting hx
  next => trivial

theorem DebounceInv.round (h : DebounceInv start steps btn)
    (hlast : ∀ q ∈ polls steps, q.now ≤ p.now)
    (hbtn : btn = run (unlogged BtnStep.exec) start steps)
    (hround : BtnRound p btn signals btn') : DebounceInv start (steps ++ [.round p]) btn' := by
  refine ⟨(activeLogic_round hround).trans h.1, ?_⟩
  obtain ⟨hlogic, hinv⟩ := h
  cases hround with
  | rest hstate hlevel hforget => rw [hstate]; trivial
  | forget hstate hlevel hcount htimeout => rw [hstate]; trivial
  | notice hstate hlevel =>
      refine ⟨steps, p, [], ⟨rfl, ?_⟩, ?_⟩
      · intro r hr
        rw [List.mem_singleton.mp hr, hlevel, hlogic]
      · rw [← hbtn]
        exact tick_add_elimination _ _
  | bounce hstate hlevel => trivial
  | await hstate hlevel htimeout =>
      rw [hstate] at hinv ⊢
      obtain ⟨before, q, since, hclosed, hsince⟩ := hinv
      exact ⟨before, q, since ++ [.round p], hclosed.round (hlevel.trans hlogic), hsince⟩
  | confirm hstate hlevel htimeout =>
      rw [hstate] at hinv
      obtain ⟨before, q, since, hclosed, hsince⟩ := hinv
      refine ⟨before, q, since ++ [.round p], hclosed.round (hlevel.trans hlogic), p, by simp, ?_⟩
      -- a tick before the timeout is not past it
      by_contra hlt
      have hq : q.now ≤ p.now := hlast q (by simp [hclosed.split])
      have hms := (run (unlogged BtnStep.exec) start before).eliminationTime.toNat_lt
      exact not_timedOut_of_lt hsince (Nat.lt_of_not_le hlt) (by omega) htimeout
  | down hstate => trivial
  | keep hstate hlevel hcycle =>
      rw [show (btn.calHoldTime p).state = .pressHold from hstate]
      trivial
  | cycle hstate hlevel hcycle =>
      rw [show (btn.calHoldTime p).state = .pressHold from hstate]
      trivial
  | release hstate hlevel => trivial
  | up hstate => trivial

theorem debounceInv_run (btn : AgileBtn) (now : Nat) (hclock : Clocked steps) :
    DebounceInv (btn.start now) steps (run (unlogged BtnStep.exec) (btn.start now) steps) := by
  induction steps using List.reverseRecOn with
  | nil => exact ⟨rfl, trivial⟩
  | append_singleton steps x ih =>
      unfold Clocked at hclock
      rw [polls_append, List.pairwise_append] at hclock
      obtain ⟨hbefore, -, hlast⟩ := hclock
      rw [run_concat]
      cases x with
      | round p =>
          exact (ih hbefore).round (fun q hq => hlast q hq p (by simp)) rfl (process_round p _)
      | setEliminationTime ms | setHoldCycleTime ms | setEventCb event cb =>
          exact (ih hbefore).setting rfl

theorem state_of_pressDown {s : BtnSignal} (hround : BtnRound p btn signals btn')
    (hs : s ∈ signals) (hdown : s.event = .pressDown) : btn.state = .pressDown := by
  cases hround with
  | down hstate => exact hstate
  | cycle hstate hlevel hcycle =>
      rw [List.mem_singleton.mp hs] at hdown
      cases hdown
  | up hstate =>
      simp only [List.mem_cons, List.not_mem_nil, or_false] at hs
      rcases hs with rfl | rfl <;> cases hdown
  | rest | forget | notice | bounce | await | confirm | keep | release => cases hs

/-- Whatever has happened since its start, a button is called pressed only right after
its contact has been closed for the elimination time. -/
theorem pressDown_debounced (btn : AgileBtn) (now : Nat) {steps : List BtnStep}
    (hclock : Clocked steps) {p : BtnPoll} {s : BtnSignal}
    (hs : s ∈ ((run (unlogged BtnStep.exec) (btn.start now) steps).process p).log)
    (hdown : s.event = .pressDown) : Debounced (btn.start now) steps := by
  have hinv := (debounceInv_run btn now hclock).2
  rw [state_of_pressDown (process_round p _) hs hdown] at hinv
  exact hinv

/-- Rounds that see KEY1 closed at the given ticks. -/
def closedAt (ticks : List Nat) : List BtnStep := ticks.map fun now => .round ⟨0, now, now⟩

theorem pressDown_debounced_closedAt :
    Debounced ((AgileBtn.create .key1 0 0).start 0) (closedAt [100, 105, 110, 115]) :=
  pressDown_debounced (AgileBtn.create .key1 0 0) 0 (p := ⟨0, 120, 120⟩)
    (s := ⟨.pressDown, none, .key1, 1, 0⟩) (by unfold Clocked; decide) (by decide +kernel) rfl

end Runs

/-! ## When a press is called -/

section Closed

variable {btn : AgileBtn} {p q : BtnPoll} {since : List BtnStep} {t : Nat}

/-- Rounds in order, each less than half of the range of the tick after the one before. -/
def Steady (rounds : List BtnPoll) : Prop :=
  rounds.IsChain fun p q => p.now ≤ q.now ∧ q.now < p.now + (2 ^ 31 - 1)

/-- The steps call the button pressed. -/
def CallsPressed (btn : AgileBtn) (steps : List BtnStep) : Prop :=
  .pressDown ∈ (trace BtnStep.exec btn steps).map BtnSignal.event

theorem callsPressed_setting {x : BtnStep} (hx : x.poll? = none) :
    CallsPressed btn (x :: since) ↔ CallsPressed (x.exec btn).val since := by
  have hlog : (x.exec btn).log = [] := by
    cases x with
    | round p => cases hx
    | setEliminationTime ms | setHoldCycleTime ms | setEventCb event cb => rfl
  rw [CallsPressed, trace_cons, hlog, List.nil_append]
  rfl

theorem polls_setting {x : BtnStep} (hx : x.poll? = none) : polls (x :: since) = polls since :=
  List.filterMap_cons_none hx

theorem process_pressDown (p : BtnPoll) (hstate : btn.state = .pressDown) :
    .pressDown ∈ (btn.process p).log.map BtnSignal.event := by
  rw [AgileBtn.process, hstate]
  exact List.mem_cons_self

/-- Once the time is over, the next round calls the button pressed. -/
theorem callsPressed_confirmed (hstate : btn.state = .pressDown) :
    CallsPressed btn since ↔ polls since ≠ [] := by
  induction since generalizing btn with
  | nil => simp [CallsPressed, polls]
  | cons x since ih =>
      cases hx : x.poll? with
      | none =>
          rw [callsPressed_setting hx, polls_setting hx]
          exact ih ((BtnStep.activeLogic_setting hx btn).2.1.trans hstate)
      | some p =>
          cases x with
          | round p' =>
              refine iff_of_true ?_ (List.cons_ne_nil _ _)
              rw [CallsPressed, trace_cons, List.map_append]
              exact List.mem_append_left _ (process_pressDown p' hstate)
          | setEliminationTime ms | setHoldCycleTime ms | setEventCb event cb => cases hx

theorem exists_mem_dropLast_cons {P : BtnPoll → Prop} {rounds : List BtnPoll} (hp : ¬ P p) :
    (∃ r ∈ (p :: rounds).dropLast, P r) ↔ ∃ r ∈ rounds.dropLast, P r := by
  cases rounds with
  | nil => rfl
  | cons r rounds => simp [hp]

/-- While the button waits for tick `t`. -/
theorem callsPressed_checked (hstate : btn.state = .checkPress)
    (htimeout : btn.tickTimeout = rtTickGet t) (hle : q.now ≤ t) (hnear : t ≤ q.now + 255)
    (hclosed : ∀ p ∈ polls since, p.level = btn.activeLogic)
    (hsteady : Steady (q :: polls since)) :
    CallsPressed btn since ↔ ∃ r ∈ (polls since).dropLast, t ≤ r.now := by
  induction since generalizing btn q with
  | nil => simp [CallsPressed, polls]
  | cons x since ih =>
      cases hx : x.poll? with
      | none =>
          rw [polls_setting hx] at hclosed hsteady ⊢
          obtain ⟨hlogic', hstate', htimeout'⟩ := BtnStep.activeLogic_setting hx btn
          rw [callsPressed_setting hx]
          refine ih (hstate'.trans hstate) (htimeout'.trans htimeout) hle hnear ?_ hsteady
          rw [hlogic']
          exact hclosed
      | some p =>
          cases x with
          | round p' =>
              rw [polls_round, Steady, List.isChain_cons_cons] at hsteady
              rw [polls_round, List.forall_mem_cons] at hclosed
              obtain ⟨⟨hforward, hgap⟩, hlater⟩ := hsteady
              obtain ⟨hlevel, hclosed⟩ := hclosed
              rw [polls_round]
              rcases Nat.lt_or_ge p'.now t with hearly | hlate
              · -- too early: the button keeps waiting
                have hnot : ¬ btn.TimedOut p'.now := not_timedOut_of_lt htimeout hearly (by omega)
                have hstep : (BtnStep.round p').exec btn = pure btn := by
                  rw [BtnStep.exec, AgileBtn.process, hstate]
                  simp only [hlevel, if_true, hnot, if_false]
                rw [exists_mem_dropLast_cons hearly.not_ge, CallsPressed, trace_cons, hstep]
                exact ih hstate htimeout hearly.le (by omega) hclosed hlater
              · have htimedOut : btn.TimedOut p'.now := timedOut_of_le htimeout hlate (by omega)
                have hstep : (BtnStep.round p').exec btn =
                    pure { btn with state := .pressDown } := by
                  rw [BtnStep.exec, AgileBtn.process, hstate]
                  simp only [hlevel, if_true, htimedOut]
                rw [CallsPressed, trace_cons, hstep]
                refine Iff.trans (callsPressed_confirmed rfl) ?_
                constructor
                · intro hmore
                  refine ⟨p', ?_, hlate⟩
                  rw [List.dropLast_cons_of_ne_nil hmore]
                  exact List.mem_cons_self
                · rintro ⟨r, hr, -⟩ hnone
                  rw [hnone] at hr
                  cases hr
          | setEliminationTime ms | setHoldCycleTime ms | setEventCb event cb => cases hx

/-- A button that waits for a press and finds its contact closed from a round on is
called pressed exactly if a round before the last one comes at least the elimination
time later. -/
theorem callsPressed_iff (hstate : btn.state = .nonePress)
    (hclosed : ∀ p ∈ q :: polls since, p.level = btn.activeLogic)
    (hsteady : Steady (q :: polls since)) :
    CallsPressed btn (.round q :: since) ↔
      ∃ r ∈ (polls since).dropLast, q.now + btn.eliminationTime.toNat ≤ r.now := by
  rw [List.forall_mem_cons] at hclosed
  have hstep : (BtnStep.round q).exec btn = pure { btn with
      tickTimeout := rtTickGet q.now + rtTickFromMillisecond btn.eliminationTime.toUInt32.toInt32
      state := .checkPress } := by
    rw [BtnStep.exec, AgileBtn.process, hstate]
    simp only [hclosed.1, if_true]
  have hms := btn.eliminationTime.toNat_lt
  rw [CallsPressed, trace_cons, hstep]
  exact callsPressed_checked rfl (tick_add_elimination _ _) (Nat.le_add_right _ _) (by omega)
    hclosed.2 hsteady

/-- A contact that is closed for 18 ms is called pressed, one closed for 10 ms is not. -/
theorem callsPressed_iff_held :
    CallsPressed ((AgileBtn.create .key1 0 0).start 0) (closedAt [100, 105, 116, 118]) ∧
      ¬ CallsPressed ((AgileBtn.create .key1 0 0).start 0) (closedAt [100, 105, 110]) := by
  constructor
  · rw [show closedAt [100, 105, 116, 118] =
        .round ⟨0, 100, 100⟩ :: closedAt [105, 116, 118] from rfl,
      callsPressed_iff rfl (by decide) (by unfold Steady; decide)]
    exact ⟨⟨0, 116, 116⟩, List.mem_cons_of_mem _ List.mem_cons_self, by decide⟩
  · rw [show closedAt [100, 105, 110] = .round ⟨0, 100, 100⟩ :: closedAt [105, 110] from rfl,
      callsPressed_iff rfl (by decide) (by unfold Steady; decide)]
    decide

end Closed

end SmartCar
