import SmartCar.Buttons.Debounce

/-!
# A button in natural time

What a button is for, without a tick that wraps around and without counters of 8
and 32 bits: presses, debounced, timed and counted in natural numbers. As long as
the tick has not wrapped around and the thread is not kept away for days, the
button of `agile_button.c` signals what this one does.
-/

namespace SmartCar

open Imperative Logged

/-! ## The button -/

structure NatBtn where
  state : AgileBtnState
  activeLogic : UInt8
  eliminationTime : Nat
  holdCycleTime : Nat
  repeatCnt : Nat
  /-- The tick that the button waits for, and while it is pressed the tick of its press. -/
  timeout : Nat
  holdTime : Nat
  prevHoldTime : Nat

/-- An event with the repeat count and the time that the button has been held. -/
structure BtnReport where
  event : AgileBtnEvent
  repeatCnt : Nat
  holdTime : Nat

namespace NatBtn

/-- A button that is started at tick `now`. -/
def start (btn : AgileBtn) (now : Nat) : NatBtn where
  state := .nonePress
  activeLogic := btn.activeLogic
  eliminationTime := btn.eliminationTime.toNat
  holdCycleTime := btn.holdCycleTime.toNat
  repeatCnt := 0
  timeout := now
  holdTime := 0
  prevHoldTime := 0

def round (p : BtnPoll) (b : NatBtn) : Logged BtnReport NatBtn :=
  match b.state with
  | .nonePress =>
      if p.level = b.activeLogic then
        return { b with timeout := p.now + b.eliminationTime, state := .checkPress }
      else if b.timeout ≤ p.now then return { b with repeatCnt := 0 }
      else return b
  | .checkPress =>
      if p.level = b.activeLogic then
        if b.timeout ≤ p.now then return { b with state := .pressDown } else return b
      else return { b with state := .nonePress }
  | .pressDown => do
      touch ⟨.pressDown, b.repeatCnt + 1, 0⟩
      return { b with
        holdTime := 0
        prevHoldTime := 0
        repeatCnt := b.repeatCnt + 1
        timeout := p.now
        state := .pressHold }
  | .pressHold =>
      if p.level = b.activeLogic then
        if p.again - b.timeout ≥ b.prevHoldTime + b.holdCycleTime then do
          touch ⟨.hold, b.repeatCnt, p.again - b.timeout⟩
          return { b with
            holdTime := p.again - b.timeout
            prevHoldTime := p.again - b.timeout }
        else return { b with holdTime := p.again - b.timeout }
      else return { b with state := .pressUp }
  | .pressUp => do
      touch ⟨.pressUp, b.repeatCnt, b.holdTime⟩
      touch ⟨.click, b.repeatCnt, b.holdTime⟩
      return { b with timeout := p.now + 500, state := .nonePress }

def exec : BtnStep → NatBtn → Logged BtnReport NatBtn
  | .round p, b => b.round p
  | .setEliminationTime ms, b => return { b with eliminationTime := ms.toNat }
  | .setHoldCycleTime ms, b => return { b with holdCycleTime := ms.toNat }
  | .setEventCb _ _, b => return b

end NatBtn

/-! ## The button of the package follows it -/

def BtnSignal.report (s : BtnSignal) : AgileBtnEvent × UInt8 × UInt32 :=
  (s.event, s.repeatCnt, s.holdTime)

/-- The report in the counters of the package. -/
def BtnReport.truncated (r : BtnReport) : AgileBtnEvent × UInt8 × UInt32 :=
  (r.event, UInt8.ofNat r.repeatCnt, UInt32.ofNat r.holdTime)

/-- The record of the package holds what the button in natural time holds. -/
structure Represents (b : NatBtn) (btn : AgileBtn) : Prop where
  state : btn.state = b.state
  activeLogic : btn.activeLogic = b.activeLogic
  eliminationTime : btn.eliminationTime.toNat = b.eliminationTime
  holdCycleTime : btn.holdCycleTime.toNat = b.holdCycleTime
  repeatCnt : btn.repeatCnt = UInt8.ofNat b.repeatCnt
  timeout : btn.tickTimeout = rtTickGet b.timeout
  holdTime : btn.holdTime = UInt32.ofNat b.holdTime
  prevHoldTime : btn.prevHoldTime = UInt32.ofNat b.prevHoldTime

/-- How far the timeout is from tick `last`, at which the last round ended. -/
def NatBtn.Near (last : Nat) (b : NatBtn) : Prop :=
  match b.state with
  | .nonePress => b.repeatCnt = 0 ∨ last ≤ b.timeout + 2 ^ 30 ∧ b.timeout ≤ last + 500
  | .checkPress => last ≤ b.timeout + 2 ^ 29 ∧ b.timeout ≤ last + 500
  | .pressHold => b.timeout + b.prevHoldTime ≤ last
  | _ => True

/-- A round after the one that ended at tick `last`, before the tick wraps around. -/
structure BtnPoll.Follows (last : Nat) (p : BtnPoll) : Prop where
  forward : last ≤ p.now
  order : p.now ≤ p.again
  soon : p.again < last + 2 ^ 29
  early : p.again < 2 ^ 32

/-- Rounds that follow each other, the first one after tick `last`. -/
def Timely (last : Nat) (rounds : List BtnPoll) : Prop :=
  match rounds with
  | [] => True
  | p :: rounds => p.Follows last ∧ Timely p.again rounds

section Rounds

variable {b : NatBtn} {btn : AgileBtn} {last : Nat} {p : BtnPoll}

theorem Represents.timedOut_iff (h : Represents b btn) (hlate : p.now < b.timeout + (2 ^ 31 - 1))
    (hearly : b.timeout ≤ p.now + 2 ^ 31) : btn.TimedOut p.now ↔ b.timeout ≤ p.now := by
  rcases Nat.lt_or_ge p.now b.timeout with hlt | hle
  · exact iff_of_false (not_timedOut_of_lt h.timeout hlt hearly) hlt.not_ge
  · exact iff_of_true (timedOut_of_le h.timeout hle hlate) hle

theorem Represents.calHoldTime (h : Represents b btn) (hsince : b.timeout ≤ p.now)
    (hp : p.Follows last) : (btn.calHoldTime p).holdTime = UInt32.ofNat (p.again - b.timeout) := by
  have hnow : p.now < 2 ^ 32 := hp.order.trans_lt hp.early
  have hunwrapped : ¬ rtTickGet p.now < btn.tickTimeout := by
    rw [h.timeout, UInt32.lt_iff_toNat_lt, rtTickGet, rtTickGet, UInt32.toNat_ofNat',
      UInt32.toNat_ofNat', Nat.mod_eq_of_lt hnow, Nat.mod_eq_of_lt (hsince.trans_lt hnow)]
    exact hsince.not_gt
  unfold AgileBtn.calHoldTime
  rw [if_neg hunwrapped, h.timeout, UInt32.ofNat_sub (hsince.trans hp.order)]
  exact UInt32.mul_one _

/-- The comparison of 32-bit times is that of the natural ones. -/
theorem Represents.cycle_iff (h : Represents b btn) {held : Nat} (hheld : held < 2 ^ 32)
    (hprev : b.prevHoldTime ≤ held) :
    UInt32.ofNat held - btn.prevHoldTime ≥ btn.holdCycleTime ↔
      held ≥ b.prevHoldTime + b.holdCycleTime := by
  rw [h.prevHoldTime, ← UInt32.ofNat_sub hprev, ge_iff_le, UInt32.le_iff_toNat_le,
    h.holdCycleTime, UInt32.toNat_ofNat', Nat.mod_eq_of_lt (by omega)]
  omega

/-- A round of the package keeps up with one in natural time. -/
structure KeepsUp (last : Nat) (b : NatBtn) (reports : List BtnReport) (signals : List BtnSignal)
    (btn : AgileBtn) : Prop where
  represents : Represents b btn
  near : b.Near last
  log : signals.map BtnSignal.report = reports.map BtnReport.truncated

theorem Represents.round {signals : List BtnSignal} {btn' : AgileBtn} (h : Represents b btn)
    (hnear : b.Near last) (hp : p.Follows last) (hround : BtnRound p btn signals btn') :
    KeepsUp p.again (b.round p).val (b.round p).log signals btn' := by
  have hforward := hp.forward
  have horder := hp.order
  have hsoon := hp.soon
  have hearly := hp.early
  cases hround with
  | rest hstate hlevel hforget =>
      rw [h.state] at hstate
      rw [h.activeLogic] at hlevel
      rw [NatBtn.Near, hstate] at hnear
      by_cases htimeout : b.timeout ≤ p.now
      · -- the count was 0 already, in the 8 bits of the package
        have hcount : btn.repeatCnt = 0 := by
          by_contra hcount
          rcases hnear with hzero | ⟨hlast, hnear⟩
          · exact hcount (h.repeatCnt.trans (congrArg UInt8.ofNat hzero))
          · exact hforget ⟨hcount, (h.timedOut_iff (by omega) (by omega)).mpr htimeout⟩
        have hstep : b.round p = pure { b with repeatCnt := 0 } := by
          simp [NatBtn.round, hstate, hlevel, htimeout]
        rw [hstep]
        exact ⟨{ h with repeatCnt := hcount }, by simp [NatBtn.Near, hstate], rfl⟩
      · have hstep : b.round p = pure b := by
          simp [NatBtn.round, hstate, hlevel, htimeout]
        rw [hstep]
        refine ⟨h, ?_, rfl⟩
        rw [val_pure, NatBtn.Near, hstate]
        exact hnear.imp_right fun hnear => ⟨by omega, by omega⟩
  | forget hstate hlevel hcount htimeout =>
      rw [h.state] at hstate
      rw [h.activeLogic] at hlevel
      rw [NatBtn.Near, hstate] at hnear
      have hle : b.timeout ≤ p.now := by
        rcases hnear with hzero | ⟨hlast, hnear⟩
        · exact absurd (h.repeatCnt.trans (congrArg UInt8.ofNat hzero)) hcount
        · exact (h.timedOut_iff (by omega) (by omega)).mp htimeout
      have hstep : b.round p = pure { b with repeatCnt := 0 } := by
        simp [NatBtn.round, hstate, hlevel, hle]
      rw [hstep]
      exact ⟨{ h with repeatCnt := rfl }, by simp [NatBtn.Near, hstate], rfl⟩
  | notice hstate hlevel =>
      rw [h.state] at hstate
      rw [h.activeLogic] at hlevel
      have hstep : b.round p =
          pure { b with timeout := p.now + b.eliminationTime, state := .checkPress } := by
        simp [NatBtn.round, hstate, hlevel]
      have hms : b.eliminationTime < 256 := h.eliminationTime ▸ btn.eliminationTime.toNat_lt
      have htimeout := tick_add_elimination p.now btn.eliminationTime
      rw [h.eliminationTime] at htimeout
      rw [hstep]
      refine ⟨{ h with state := rfl, timeout := htimeout }, ?_, rfl⟩
      simp only [val_pure, NatBtn.Near]
      omega
  | bounce hstate hlevel =>
      rw [h.state] at hstate
      rw [h.activeLogic] at hlevel
      rw [NatBtn.Near, hstate] at hnear
      have hstep : b.round p = pure { b with state := .nonePress } := by
        simp [NatBtn.round, hstate, hlevel]
      rw [hstep]
      refine ⟨{ h with state := rfl }, ?_, rfl⟩
      simp only [val_pure, NatBtn.Near]
      omega
  | await hstate hlevel htimeout =>
      rw [h.state] at hstate
      rw [h.activeLogic] at hlevel
      rw [NatBtn.Near, hstate] at hnear
      rw [h.timedOut_iff (by omega) (by omega)] at htimeout
      have hstep : b.round p = pure b := by
        simp [NatBtn.round, hstate, hlevel, htimeout]
      rw [hstep]
      refine ⟨h, ?_, rfl⟩
      rw [val_pure, NatBtn.Near, hstate]
      dsimp only
      omega
  | confirm hstate hlevel htimeout =>
      rw [h.state] at hstate
      rw [h.activeLogic] at hlevel
      rw [NatBtn.Near, hstate] at hnear
      rw [h.timedOut_iff (by omega) (by omega)] at htimeout
      have hstep : b.round p = pure { b with state := .pressDown } := by
        simp [NatBtn.round, hstate, hlevel, htimeout]
      rw [hstep]
      exact ⟨{ h with state := rfl }, trivial, rfl⟩
  | down hstate =>
      rw [h.state] at hstate
      have hcount : btn.repeatCnt + 1 = UInt8.ofNat (b.repeatCnt + 1) := by
        rw [h.repeatCnt, UInt8.ofNat_add]
        rfl
      have hlog : (b.round p).log = [⟨.pressDown, b.repeatCnt + 1, 0⟩] := by
        rw [NatBtn.round, hstate]
        rfl
      have hval : (b.round p).val = { b with
          holdTime := 0
          prevHoldTime := 0
          repeatCnt := b.repeatCnt + 1
          timeout := p.now
          state := .pressHold } := by
        simp [NatBtn.round, hstate]
      rw [hlog, hval]
      refine ⟨{ h with
        state := rfl, repeatCnt := hcount, timeout := rfl, holdTime := rfl, prevHoldTime := rfl },
        ?_, ?_⟩
      · simp only [NatBtn.Near]
        omega
      · simp [BtnSignal.report, BtnReport.truncated, hcount]
  | keep hstate hlevel hcycle =>
      rw [h.state] at hstate
      rw [h.activeLogic] at hlevel
      rw [NatBtn.Near, hstate] at hnear
      have hheld := h.calHoldTime (by omega) hp
      rw [hheld, h.cycle_iff (by omega) (by omega)] at hcycle
      have hstep : b.round p = pure { b with holdTime := p.again - b.timeout } := by
        simp only [NatBtn.round, hstate, hlevel, if_true, hcycle, if_false]
      rw [hstep]
      refine ⟨{ h with holdTime := hheld }, ?_, rfl⟩
      simp only [val_pure, NatBtn.Near, hstate]
      omega
  | cycle hstate hlevel hcycle =>
      rw [h.state] at hstate
      rw [h.activeLogic] at hlevel
      rw [NatBtn.Near, hstate] at hnear
      have hheld := h.calHoldTime (by omega) hp
      rw [hheld, h.cycle_iff (by omega) (by omega)] at hcycle
      have hlog : (b.round p).log = [⟨.hold, b.repeatCnt, p.again - b.timeout⟩] := by
        simp only [NatBtn.round, hstate, hlevel, if_true, hcycle]
        rfl
      have hval : (b.round p).val = { b with
          holdTime := p.again - b.timeout
          prevHoldTime := p.again - b.timeout } := by
        simp only [NatBtn.round, hstate, hlevel, if_true, hcycle, val_bind, val_pure]
      rw [hlog, hval]
      refine ⟨{ h with holdTime := hheld, prevHoldTime := hheld }, ?_, ?_⟩
      · simp only [NatBtn.Near, hstate]
        omega
      · simp [BtnSignal.report, BtnReport.truncated, hheld, h.repeatCnt]
  | release hstate hlevel =>
      rw [h.state] at hstate
      rw [h.activeLogic] at hlevel
      have hstep : b.round p = pure { b with state := .pressUp } := by
        simp [NatBtn.round, hstate, hlevel]
      rw [hstep]
      exact ⟨{ h with state := rfl }, trivial, rfl⟩
  | up hstate =>
      rw [h.state] at hstate
      have hlog : (b.round p).log =
          [⟨.pressUp, b.repeatCnt, b.holdTime⟩, ⟨.click, b.repeatCnt, b.holdTime⟩] := by
        rw [NatBtn.round, hstate]
        rfl
      have hval : (b.round p).val = { b with timeout := p.now + 500, state := .nonePress } := by
        simp [NatBtn.round, hstate]
      rw [hlog, hval]
      refine ⟨{ h with state := rfl, timeout := ?_ }, ?_, ?_⟩
      · rw [rtTickGet, rtTickGet, UInt32.ofNat_add]
        rfl
      · simp only [NatBtn.Near]
        omega
      · simp [BtnSignal.report, BtnReport.truncated, h.repeatCnt, h.holdTime]

end Rounds

/-! ## Runs -/

section Runs

variable {b : NatBtn} {btn : AgileBtn} {last : Nat} {steps : List BtnStep}

theorem Represents.setting (h : Represents b btn) (hnear : b.Near last) {x : BtnStep}
    (hx : x.poll? = none) : KeepsUp last (NatBtn.exec x b).val (NatBtn.exec x b).log
      (x.exec btn).log (x.exec btn).val := by
  cases x with
  | round p => cases hx
  | setEliminationTime ms => exact ⟨{ h with eliminationTime := rfl }, hnear, rfl⟩
  | setHoldCycleTime ms => exact ⟨{ h with holdCycleTime := rfl }, hnear, rfl⟩
  | setEventCb event cb =>
      obtain ⟨eventCb, heq⟩ := btn.getD_setEventCb event cb
      rw [BtnStep.exec, val_pure, heq]
      exact ⟨{ h with }, hnear, rfl⟩

/-- A run of the button in natural time. -/
theorem Represents.run (h : Represents b btn) (hnear : b.Near last)
    (htimely : Timely last (polls steps)) :
    (trace BtnStep.exec btn steps).map BtnSignal.report =
      (trace NatBtn.exec b steps).map BtnReport.truncated := by
  induction steps generalizing b btn last with
  | nil => rfl
  | cons x steps ih =>
      rw [trace_cons, trace_cons, List.map_append, List.map_append]
      cases hx : x.poll? with
      | none =>
          have hset := h.setting hnear hx
          rw [polls_setting hx] at htimely
          exact congrArg₂ _ hset.log (ih hset.represents hset.near htimely)
      | some p =>
          cases x with
          | round p' =>
              obtain ⟨hfollows, hlater⟩ := htimely
              have hround := h.round hnear hfollows (process_round p' btn)
              exact congrArg₂ _ hround.log (ih hround.represents hround.near hlater)
          | setEliminationTime ms | setHoldCycleTime ms | setEventCb event cb => cases hx

theorem represents_start (btn : AgileBtn) (now : Nat) :
    Represents (NatBtn.start btn now) (btn.start now) :=
  ⟨rfl, rfl, rfl, rfl, rfl, rfl, rfl, rfl⟩

/-- Until the tick wraps around, and as long as the thread comes round at least every
six days, a button signals what one in natural time does, with the repeat counts
modulo 256 and the hold times modulo 2 ^ 32. -/
theorem btnSignals_natural (btn : AgileBtn) (now : Nat) (steps : List BtnStep)
    (htimely : Timely now (polls steps)) :
    (btnSignals btn now steps).map BtnSignal.report =
      (trace NatBtn.exec (NatBtn.start btn now) steps).map BtnReport.truncated :=
  (represents_start btn now).run (.inl rfl) htimely

theorem btnSignals_natural_press : (btnSignals (AgileBtn.create .key1 0 0) 5
      [.round ⟨0, 6, 6⟩, .round ⟨0, 25, 25⟩, .round ⟨0, 26, 26⟩, .round ⟨1, 90, 91⟩,
        .round ⟨1, 92, 93⟩]).map BtnSignal.report =
    (trace NatBtn.exec (NatBtn.start (AgileBtn.create .key1 0 0) 5)
      [.round ⟨0, 6, 6⟩, .round ⟨0, 25, 25⟩, .round ⟨0, 26, 26⟩, .round ⟨1, 90, 91⟩,
        .round ⟨1, 92, 93⟩]).map BtnReport.truncated :=
  btnSignals_natural _ 5 _ <| by
    have hfollows : ∀ (l : UInt8) (last now again : Nat), last ≤ now → now ≤ again →
        again < last + 2 ^ 29 → again < 2 ^ 32 → BtnPoll.Follows last ⟨l, now, again⟩ :=
      fun _ _ _ _ hforward horder hsoon hearly => ⟨hforward, horder, hsoon, hearly⟩
    simp [Timely, hfollows, show polls [] = [] from rfl]

end Runs

end SmartCar
