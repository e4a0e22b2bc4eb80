import Mathlib.Algebra.Ring.Parity
import SmartCar.Buttons.ButtonList

/-!
# The keys

`buttonThread.c`: four buttons and what their clicks do. KEY1 switches the chassis
on and off, KEY2 goes through the pictures of the display, KEY3 and KEY4 send
images; the case of KEY3 has no `break` and goes on with that of KEY4.
-/

namespace SmartCar

open Imperative Logged

/-! ## Callbacks -/

/-- `limit_loop` of `util.c`. -/
def limitLoop (x a b : Int) : Int :=
  let i := x + 1
  if i > b then i.tmod (b - a + 1) else i

/-- The globals that clicks change. -/
structure KeyGlobals where
  isChassisRunning : Bool
  dispPicType : UInt8

/-- What a callback sends over the serial line. -/
inductive KeyOutput where
  | kprintf (pin : KeyPin) (repeatCnt : UInt8) (holdTime : UInt32)
  | uploadMyBin
  | uploadMyGray
  | uploadZfBin
  | uploadZfGray
deriving DecidableEq

/-- The case of KEY4. -/
def key4Case (s : BtnSignal) (g : KeyGlobals) : Logged KeyOutput KeyGlobals :=
  if s.repeatCnt = 1 then do
    touch .uploadZfBin
    return g
  else if s.repeatCnt = 2 then do
    touch .uploadZfGray
    return g
  else return g

/-- The switch of `btn_click_event_cb`. -/
def keyCases (s : BtnSignal) (g : KeyGlobals) : Logged KeyOutput KeyGlobals :=
  match s.pin with
  | .key1 => return { g with isChassisRunning := !g.isChassisRunning }
  | .key2 => return { g with dispPicType := UInt8.ofInt (limitLoop g.dispPicType.toNat 0 2) }
  | .key3 =>
      if s.repeatCnt = 1 then do
        touch .uploadMyBin
        key4Case s g
      else if s.repeatCnt = 2 then do
        touch .uploadMyGray
        key4Case s g
      else if s.repeatCnt = 3 then return g
      else key4Case s g
  | .key4 => key4Case s g

def btnClickEventCb (s : BtnSignal) (g : KeyGlobals) : Logged KeyOutput KeyGlobals := do
  touch (.kprintf s.pin s.repeatCnt s.holdTime)
  keyCases s g

/-- The callback of a signal; `btn_hold_event_cb` does nothing. -/
def callBack (s : BtnSignal) (g : KeyGlobals) : Logged KeyOutput KeyGlobals :=
  match s.cb with
  | some .btnClickEventCb => btnClickEventCb s g
  | some .btnHoldEventCb => return g
  | none => return g

/-! ## The thread with the keys -/

/-- What `key_create` does for one key, whose record is allocated at `a`. -/
def createKey (a : BtnAddr) (pin : KeyPin) (now : Nat) : List BtnCall :=
  [.create a pin 0 now, .setEventCb a .click (some .btnClickEventCb),
    .setEventCb a .hold (some .btnHoldEventCb), .start a now]

def keyCreate (addr : KeyPin → BtnAddr) (now : Nat) : List BtnCall :=
  createKey (addr .key1) .key1 now ++ createKey (addr .key2) .key2 now ++
    createKey (addr .key3) .key3 now ++ createKey (addr .key4) .key4 now

/-- The calls of a program that creates the keys and leaves them to the thread. -/
def keyCalls (addr : KeyPin → BtnAddr) (now : Nat) (rounds : List (BtnAddr → BtnPoll)) :
    List BtnCall :=
  keyCreate addr now ++ rounds.map BtnCall.round

/-- The globals after the callbacks of a log. -/
def afterCallbacks (g : KeyGlobals) (log : List (BtnAddr × BtnSignal)) : KeyGlobals :=
  run (unlogged callBack) g (log.map Prod.snd)

/-- The record of a key when it is started. -/
def keyRecord (pin : KeyPin) (now : Nat) : AgileBtn :=
  { AgileBtn.create pin 0 now with
    eventCb := Function.update (Function.update (fun _ => none) .click (some .btnClickEventCb))
      .hold (some .btnHoldEventCb) }

section Thread

variable {addr : KeyPin → BtnAddr} {now : Nat} {a : BtnAddr} {key : KeyPin}

theorem callsAllowed_keys (haddr : Function.Injective addr) (rounds : List (BtnAddr → BtnPoll)) :
    CallsAllowed [] (keyCalls addr now rounds) := by
  have hrounds : ∀ alloc, CallsAllowed alloc (rounds.map BtnCall.round) := by
    intro alloc
    induction rounds with
    | nil => trivial
    | cons poll rounds ih => exact ⟨trivial, ih⟩
  have hne : ∀ k l, k ≠ l → addr k ≠ addr l := fun k l h heq => h (haddr heq)
  simp [keyCalls, keyCreate, createKey, CallsAllowed, BtnCall.Allowed, BtnCall.allocates, hrounds,
    hne]

theorem created_keys (rounds : List (BtnAddr → BtnPoll)) :
    created (keyCalls addr now rounds) = 4 := by
  have hrounds : created (rounds.map BtnCall.round) = 0 := by
    rw [created, List.countP_eq_zero]
    intro c hc
    obtain ⟨poll, -, rfl⟩ := List.mem_map.mp hc
    simp
  rw [keyCalls, created, List.countP_append]
  exact congrArg (4 + ·) hrounds

/-- A key alone, from its start on. -/
theorem trace_alone_rounds {btn : AgileBtn} (hactive : btn.active = true)
    (rounds : List (BtnAddr → BtnPoll)) :
    trace (BtnCall.alone a) (some btn) (rounds.map BtnCall.round) =
      trace BtnStep.exec btn (rounds.map fun poll => .round (poll a)) := by
  induction rounds generalizing btn with
  | nil => rfl
  | cons poll rounds ih =>
      have hround : (BtnCall.round poll).alone a (some btn) = some <$> btn.process (poll a) := by
        rw [BtnCall.alone, if_pos hactive]
      rw [List.map_cons, List.map_cons, trace_cons, trace_cons, hround, val_map,
        ih ((active_round (process_round (poll a) btn)).trans hactive)]
      exact congrArg (· ++ _) (List.append_nil _)

theorem trace_alone_none (rounds : List (BtnAddr → BtnPoll)) :
    trace (BtnCall.alone a) none (rounds.map BtnCall.round) = [] := by
  induction rounds with
  | nil => rfl
  | cons poll rounds ih => exact ih

/-- The calls for another key. -/
theorem alone_createKey_of_ne {b : BtnAddr} (hne : b ≠ a) (btn : Option AgileBtn)
    (pin : KeyPin) (now : Nat) : run (unlogged (BtnCall.alone a)) btn (createKey b pin now) = btn ∧
      trace (BtnCall.alone a) btn (createKey b pin now) = [] := by
  simp [createKey, unlogged, BtnCall.alone, hne]

theorem alone_createKey (a : BtnAddr) (pin : KeyPin) (now : Nat) (btn : Option AgileBtn) :
    run (unlogged (BtnCall.alone a)) btn (createKey a pin now) =
        some ((keyRecord pin now).start now) ∧
      trace (BtnCall.alone a) btn (createKey a pin now) = [] := by
  simp [createKey, unlogged, BtnCall.alone, AgileBtn.setEventCb, keyRecord, AgileBtn.create,
    AgileBtn.start]

/-- Every key is created and started. -/
theorem alone_keyCreate (haddr : Function.Injective addr) (key : KeyPin) (now : Nat) :
    run (unlogged (BtnCall.alone (addr key))) none (keyCreate addr now) =
        some ((keyRecord key now).start now) ∧
      trace (BtnCall.alone (addr key)) none (keyCreate addr now) = [] := by
  have hne : ∀ k, k ≠ key → ∀ btn, _ := fun k hk btn =>
    alone_createKey_of_ne (fun heq => hk (haddr heq)) btn k now
  have hself := alone_createKey (addr key) key now
  cases key with
  | key1 | key2 | key3 | key4 =>
      simp [keyCreate, run_append, trace_append, hself, hne]

theorem alone_keyCreate_none (ha : ∀ key, addr key ≠ a) (now : Nat) :
    run (unlogged (BtnCall.alone a)) none (keyCreate addr now) = none ∧
      trace (BtnCall.alone a) none (keyCreate addr now) = [] := by
  have hne := fun key (btn : Option AgileBtn) => alone_createKey_of_ne (ha key) btn key now
  simp [keyCreate, run_append, trace_append, hne]

/-- What a key calls back is what a button that has been started with its record does. -/
theorem signals_key (haddr : Function.Injective addr) (key : KeyPin)
    (rounds : List (BtnAddr → BtnPoll)) :
    trace (BtnCall.alone (addr key)) none (keyCalls addr now rounds) =
      btnSignals (keyRecord key now) now (rounds.map fun poll => .round (poll (addr key))) := by
  obtain ⟨hrun, htrace⟩ := alone_keyCreate haddr key now
  rw [keyCalls, trace_append, hrun, htrace, List.nil_append, trace_alone_rounds rfl]
  rfl

theorem signals_none (ha : ∀ key, addr key ≠ a) (rounds : List (BtnAddr → BtnPoll)) :
    trace (BtnCall.alone a) none (keyCalls addr now rounds) = [] := by
  obtain ⟨hrun, htrace⟩ := alone_keyCreate_none ha now
  rw [keyCalls, trace_append, hrun, htrace, trace_alone_none, List.append_nil]

end Thread

/-! ## Clicks -/

/-- A signal of a key with the callback that `key_create` has set. -/
def BtnSignal.Wired (key : KeyPin) (s : BtnSignal) : Prop :=
  s.pin = key ∧ s.cb = (keyRecord key 0).eventCb s.event

/-- The repeat count of a click. -/
def clickOf (m : AgileBtnEvent × UInt8) : Option UInt8 := if m.1 = .click then some m.2 else none

/-- The repeat counts of the clicks among some signals. -/
def clicks (ss : List BtnSignal) : List UInt8 := ss.filterMap fun s => clickOf s.mark

/-- The repeat counts of the clicks of one key. -/
def clicksOf (key : KeyPin) (ss : List BtnSignal) : List UInt8 :=
  ss.filterMap fun s => if s.pin = key then clickOf s.mark else none

section Clicks

variable {key : KeyPin} {addr : KeyPin → BtnAddr} {g : KeyGlobals}

theorem BtnRound.wired {p : BtnPoll} {btn btn' : AgileBtn} {signals : List BtnSignal}
    (hround : BtnRound p btn signals btn') :
    btn'.pin = btn.pin ∧ btn'.eventCb = btn.eventCb ∧
      ∀ s ∈ signals, s.pin = btn.pin ∧ s.cb = btn.eventCb s.event := by
  cases hround <;> simp [AgileBtn.calHoldTime]

theorem btnSignals_wired (key : KeyPin) (now : Nat) (a : BtnAddr)
    (rounds : List (BtnAddr → BtnPoll)) :
    ∀ s ∈ btnSignals (keyRecord key now) now (rounds.map fun poll => .round (poll a)),
      s.Wired key := by
  have hkeep : ∀ btn, btn.pin = key → btn.eventCb = (keyRecord key 0).eventCb →
      ∀ s ∈ trace BtnStep.exec btn (rounds.map fun poll => .round (poll a)), s.Wired key := by
    induction rounds with
    | nil => simp
    | cons poll rounds ih =>
        intro btn hpin hcb s hs
        obtain ⟨hpin', hcb', hwired⟩ := (process_round (poll a) btn).wired
        rw [List.map_cons, trace_cons, List.mem_append] at hs
        rcases hs with hs | hs
        · exact ⟨(hwired s hs).1.trans hpin, (hwired s hs).2.trans (congrFun hcb s.event)⟩
        · exact ih _ (hpin'.trans hpin) (hcb'.trans hcb) s hs
  exact hkeep _ rfl rfl

theorem clickOf_down (p : Press) : p.down.filterMap clickOf = [] := by
  rw [List.filterMap_eq_nil_iff]
  intro m hm
  rcases List.mem_cons.mp hm with rfl | hm
  · rfl
  · rw [List.eq_of_mem_replicate hm]
    rfl

theorem clickOf_whole (past : List Press) :
    (past.flatMap Press.whole).filterMap clickOf = past.map Press.repeatCnt := by
  induction past with
  | nil => rfl
  | cons p past ih =>
      rw [List.flatMap_cons, List.filterMap_append, ih, Press.whole, List.filterMap_append,
        clickOf_down]
      rfl

/-- A press is clicked when it is over. -/
theorem clicks_pressed {ss : List BtnSignal} {past : List Press} {last : Option Press}
    (h : Pressed (ss.map BtnSignal.mark) past last) : clicks ss = past.map Press.repeatCnt := by
  have hlast : (last.elim [] Press.down).filterMap clickOf = [] := by
    cases last with
    | none => rfl
    | some p => exact clickOf_down p
  have hclicks : clicks ss = (ss.map BtnSignal.mark).filterMap clickOf := by
    rw [List.filterMap_map]
    rfl
  rw [hclicks, h.marks, List.filterMap_append, clickOf_whole, hlast, List.append_nil]

/-- The clicks of a key in a log whose entries all belong to keys. -/
theorem clicksOf_signals (haddr : Function.Injective addr) {log : List (BtnAddr × BtnSignal)}
    (hlog : ∀ e ∈ log, e.1 = addr e.2.pin) (key : KeyPin) :
    clicksOf key (log.map Prod.snd) = clicks (signalsOf (addr key) log) := by
  rw [clicksOf, List.filterMap_map, clicks, signalsOf, List.filterMap_filterMap]
  apply List.filterMap_congr
  intro e he
  rw [Function.comp_apply, hlog e he]
  rcases eq_or_ne e.2.pin key with heq | hne
  · simp [heq]
  · simp [hne, haddr.ne hne]

theorem callBack_click {s : BtnSignal} (hwired : s.Wired s.pin) (hclick : s.event = .click)
    (g : KeyGlobals) : callBack s g = btnClickEventCb s g := by
  have hcb : s.cb = some .btnClickEventCb := by
    rw [hwired.2, hclick]
    cases s.pin <;> rfl
  rw [callBack, hcb]

theorem callBack_other {s : BtnSignal} (hwired : s.Wired s.pin) (hother : s.event ≠ .click)
    (g : KeyGlobals) : callBack s g = pure g := by
  have hcb : s.cb = none ∨ s.cb = some .btnHoldEventCb := by
    rw [hwired.2]
    cases hevent : s.event with
    | click => exact absurd hevent hother
    | hold => exact .inr rfl
    | pressDown | pressUp | sum => exact .inl rfl
  rcases hcb with hcb | hcb <;> rw [callBack, hcb]

end Clicks

/-! ## What clicks do -/

/-- What clicks with the given repeat counts have done to the globals and sent: as KEY3
goes on with KEY4, its single and double clicks send an image in both formats. -/
structure KeysDid (counts : KeyPin → List UInt8) (g g' : KeyGlobals) (sent : List KeyOutput) :
    Prop where
  isChassisRunning : g'.isChassisRunning =
    (g.isChassisRunning ^^ decide (Odd (counts .key1).length))
  dispPicType : g'.dispPicType.toNat = if counts .key2 = [] then g.dispPicType.toNat
    else (g.dispPicType.toNat + (counts .key2).length) % 3
  uploadMyBin : sent.count .uploadMyBin = (counts .key3).count 1
  uploadMyGray : sent.count .uploadMyGray = (counts .key3).count 2
  uploadZfBin : sent.count .uploadZfBin = (counts .key3).count 1 + (counts .key4).count 1
  uploadZfGray : sent.count .uploadZfGray = (counts .key3).count 2 + (counts .key4).count 2

section Did

variable {counts : KeyPin → List UInt8} {g g' : KeyGlobals} {sent : List KeyOutput}

theorem keysDid_nil (g : KeyGlobals) : KeysDid (fun _ => []) g g [] := by
  constructor <;> simp

theorem toNat_limitLoop (d : UInt8) :
    (UInt8.ofInt (limitLoop d.toNat 0 2)).toNat = (d.toNat + 1) % 3 := by
  have hd := d.toNat_lt
  have hloop : limitLoop d.toNat 0 2 = ((d.toNat + 1) % 3 : Nat) := by
    unfold limitLoop
    dsimp only
    split
    · rw [Int.tmod_eq_emod_of_nonneg (by omega)]
      omega
    · omega
  have hlt : (d.toNat + 1) % 3 < 2 ^ 8 := (Nat.mod_lt _ (by decide)).trans (by decide)
  rw [hloop, UInt8.ofInt, Int.emod_eq_of_lt (by omega) (by omega), Int.toNat_natCast,
    UInt8.toNat_ofNat', Nat.mod_eq_of_lt hlt]

/-- A click of KEY3: in both formats. -/
theorem btnClickEventCb_key3 {s : BtnSignal} (hpin : s.pin = .key3) (g : KeyGlobals) :
    btnClickEventCb s g = ⟨g, .kprintf .key3 s.repeatCnt s.holdTime ::
      if s.repeatCnt = 1 then [.uploadMyBin, .uploadZfBin]
      else if s.repeatCnt = 2 then [.uploadMyGray, .uploadZfGray] else []⟩ := by
  rw [btnClickEventCb, keyCases, key4Case, hpin]
  by_cases hone : s.repeatCnt = 1
  · simp only [hone, if_true]
    rfl
  by_cases htwo : s.repeatCnt = 2
  · simp only [htwo, if_true]
    rfl
  by_cases hthree : s.repeatCnt = 3
  · simp only [hthree, if_true]
    rfl
  · simp only [hone, htwo, hthree, if_false]
    rfl

theorem btnClickEventCb_key4 {s : BtnSignal} (hpin : s.pin = .key4) (g : KeyGlobals) :
    btnClickEventCb s g = ⟨g, .kprintf .key4 s.repeatCnt s.holdTime ::
      if s.repeatCnt = 1 then [.uploadZfBin]
      else if s.repeatCnt = 2 then [.uploadZfGray] else []⟩ := by
  rw [btnClickEventCb, keyCases, key4Case, hpin]
  by_cases hone : s.repeatCnt = 1
  · simp only [hone, if_true]
    rfl
  by_cases htwo : s.repeatCnt = 2
  · simp only [htwo, if_true]
    rfl
  · simp only [hone, htwo, if_false]
    rfl

/-- A click of a key. -/
theorem KeysDid.click (h : KeysDid counts g g' sent) (s : BtnSignal) :
    KeysDid (Function.update counts s.pin (counts s.pin ++ [s.repeatCnt])) g
      (btnClickEventCb s g').val (sent ++ (btnClickEventCb s g').log) := by
  obtain ⟨hchassis, hdisp, hmyBin, hmyGray, hzfBin, hzfGray⟩ := h
  cases hpin : s.pin with
  | key1 =>
      have hval : btnClickEventCb s g' = ⟨{ g' with isChassisRunning := !g'.isChassisRunning },
          [.kprintf .key1 s.repeatCnt s.holdTime]⟩ := by
        rw [btnClickEventCb, keyCases, hpin]
        rfl
      constructor <;> simp [hval, hchassis, hdisp, hmyBin, hmyGray, hzfBin, hzfGray,
        Nat.odd_add_one, -Nat.not_odd_iff_even]
  | key2 =>
      have hval : btnClickEventCb s g' =
          ⟨{ g' with dispPicType := UInt8.ofInt (limitLoop g'.dispPicType.toNat 0 2) },
          [.kprintf .key2 s.repeatCnt s.holdTime]⟩ := by
        rw [btnClickEventCb, keyCases, hpin]
        rfl
      constructor
      case dispPicType =>
        have hloop := toNat_limitLoop g'.dispPicType
        rw [hval, Function.update_self, if_neg (by simp), List.length_append]
        refine hloop.trans ?_
        rw [hdisp]
        split
        next hnone => simp [hnone]
        next hnone => rw [Nat.mod_add_mod, add_assoc, List.length_singleton]
      all_goals simp [hval, hchassis, hmyBin, hmyGray, hzfBin, hzfGray]
  | key3 =>
      rw [btnClickEventCb_key3 hpin]
      by_cases hone : s.repeatCnt = 1
      · constructor <;> simp [hone, hchassis, hdisp, hmyBin, hmyGray, hzfBin, hzfGray,
          Nat.add_right_comm]
      by_cases htwo : s.repeatCnt = 2
      · constructor <;> simp [htwo, hchassis, hdisp, hmyBin, hmyGray, hzfBin, hzfGray,
          Nat.add_right_comm]
      · constructor <;> simp [hone, htwo, hchassis, hdisp, hmyBin, hmyGray, hzfBin, hzfGray]
  | key4 =>
      rw [btnClickEventCb_key4 hpin]
      by_cases hone : s.repeatCnt = 1
      · constructor <;> simp [hone, hchassis, hdisp, hmyBin, hmyGray, hzfBin, hzfGray,
          Nat.add_assoc]
      by_cases htwo : s.repeatCnt = 2
      · constructor <;> simp [htwo, hchassis, hdisp, hmyBin, hmyGray, hzfBin, hzfGray,
          Nat.add_assoc]
      · constructor <;> simp [hone, htwo, hchassis, hdisp, hmyBin, hmyGray, hzfBin, hzfGray]

theorem KeysDid.signal (h : KeysDid counts g g' sent) {s : BtnSignal} (hwired : s.Wired s.pin) :
    KeysDid (fun key => counts key ++ clicksOf key [s]) g (callBack s g').val
      (sent ++ (callBack s g').log) := by
  by_cases hclick : s.event = .click
  · have hcounts : (fun key => counts key ++ clicksOf key [s]) =
        Function.update counts s.pin (counts s.pin ++ [s.repeatCnt]) := by
      funext key
      rcases eq_or_ne key s.pin with rfl | hne
      · simp [clicksOf, clickOf, BtnSignal.mark, hclick]
      · simp [clicksOf, hne, hne.symm]
    rw [callBack_click hwired hclick, hcounts]
    exact h.click s
  · have hcounts : (fun key => counts key ++ clicksOf key [s]) = counts := by
      funext key
      simp [clicksOf, clickOf, BtnSignal.mark, hclick]
    rw [callBack_other hwired hclick, hcounts]
    simpa using h

theorem keysDid_signals (g : KeyGlobals) (ss : List BtnSignal)
    (hwired : ∀ s ∈ ss, s.Wired s.pin) :
    KeysDid (fun key => clicksOf key ss) g (run (unlogged callBack) g ss) (trace callBack g ss) := by
  induction ss using List.reverseRecOn with
  | nil => exact keysDid_nil g
  | append_singleton ss s ih =>
      have hlast := (ih fun t ht => hwired t (by simp [ht])).signal (hwired s (by simp))
      have hcounts : (fun key => clicksOf key (ss ++ [s])) =
          fun key => clicksOf key ss ++ clicksOf key [s] := funext fun key => List.filterMap_append
      rw [run_concat, trace_concat, hcounts]
      exact hlast

end Did

/-! ## From the pins to the globals -/

theorem mem_signalsOf {log : List (BtnAddr × BtnSignal)} {e : BtnAddr × BtnSignal} (he : e ∈ log) :
    e.2 ∈ signalsOf e.1 log :=
  List.mem_filterMap.mpr ⟨e, he, if_pos rfl⟩

/-- Whatever the pins of the keys read and whenever the thread comes round: each key
calls back press after press, and what the callbacks have done to the globals and sent
is told by the presses of each key alone, in whatever order the keys were pressed. -/
theorem keys_pressed {addr : KeyPin → BtnAddr} (haddr : Function.Injective addr) {fuel : Nat}
    (hfuel : 4 < fuel) (now : Nat) (rounds : List (BtnAddr → BtnPoll)) (g : KeyGlobals) :
    ∃ x, ∃ past : KeyPin → List Press, ∃ last : KeyPin → Option Press,
      runCalls fuel BtnHeap.init (keyCalls addr now rounds) = some x ∧
      (∀ key, Pressed ((signalsOf (addr key) x.log).map BtnSignal.mark) (past key) (last key)) ∧
      KeysDid (fun key => (past key).map Press.repeatCnt) g (afterCallbacks g x.log)
        (trace callBack g (x.log.map Prod.snd)) := by
  have hcreated : ([] : List BtnAddr).length + created (keyCalls addr now rounds) < fuel := by
    rw [created_keys]
    exact hfuel
  obtain ⟨x, hx, -, hapart⟩ := runCalls_sound sound_init (callsAllowed_keys haddr rounds) hcreated
  have hsignals : ∀ key, signalsOf (addr key) x.log =
      btnSignals (keyRecord key now) now (rounds.map fun poll => .round (poll (addr key))) :=
    fun key => (hapart (addr key)).2.trans (signals_key haddr key rounds)
  have hpressed : ∀ key, ∃ past last,
      Pressed ((signalsOf (addr key) x.log).map BtnSignal.mark) past last := by
    intro key
    rw [hsignals]
    exact (gesturesOf_btnSignals _ _ _).pressed
  choose past last hpast using hpressed
  have hlog : ∀ e ∈ x.log, e.1 = addr e.2.pin ∧ e.2.Wired e.2.pin := by
    intro e he
    have hmem := mem_signalsOf he
    by_cases hkey : ∃ key, addr key = e.1
    · obtain ⟨key, hkey⟩ := hkey
      rw [← hkey, hsignals] at hmem
      have hwired := btnSignals_wired key now (addr key) rounds e.2 hmem
      rw [hwired.1]
      exact ⟨hkey.symm, hwired⟩
    · push Not at hkey
      rw [(hapart e.1).2.trans (signals_none hkey rounds)] at hmem
      exact absurd hmem List.not_mem_nil
  refine ⟨x, past, last, hx, hpast, ?_⟩
  have hdid := keysDid_signals g (x.log.map Prod.snd) <| by
    intro s hs
    obtain ⟨e, he, rfl⟩ := List.mem_map.mp hs
    exact (hlog e he).2
  have hclicks : (fun key => clicksOf key (x.log.map Prod.snd)) =
      fun key => (past key).map Press.repeatCnt := by
    funext key
    rw [clicksOf_signals haddr (fun e he => (hlog e he).1), clicks_pressed (hpast key)]
  rw [hclicks] at hdid
  exact hdid

theorem ctorIdx_injective : Function.Injective KeyPin.ctorIdx := by
  intro k l h
  cases k <;> cases l <;> first | rfl | cases h

/-- A round at a tick in which KEY1 and KEY3 are closed, or no key is. -/
def keysClosed (closed : Bool) (now : Nat) : BtnAddr → BtnPoll := fun a =>
  ⟨if closed ∧ (a = KeyPin.key1.ctorIdx ∨ a = KeyPin.key3.ctorIdx) then 0 else 1, now, now⟩

/-- KEY1 and KEY3 are pressed for 19 ms and let go. -/
def keysClicked : List (BtnAddr → BtnPoll) :=
  [1, 17, 18, 19].map (keysClosed true) ++ [20, 21].map (keysClosed false)

/-- A click of KEY1 and KEY3 at a time: the chassis stops and an image is sent in both
formats. -/
theorem keys_pressed_clicked :
    ∃ x, ∃ past : KeyPin → List Press, ∃ last : KeyPin → Option Press,
      runCalls 5 BtnHeap.init (keyCalls KeyPin.ctorIdx 0 keysClicked) = some x ∧
      (∀ key, Pressed ((signalsOf key.ctorIdx x.log).map BtnSignal.mark) (past key) (last key)) ∧
      KeysDid (fun key => (past key).map Press.repeatCnt) ⟨true, 0⟩ (afterCallbacks ⟨true, 0⟩ x.log)
        (trace callBack ⟨true, 0⟩ (x.log.map Prod.snd)) ∧
      (afterCallbacks ⟨true, 0⟩ x.log).isChassisRunning = false ∧
      trace callBack ⟨true, 0⟩ (x.log.map Prod.snd) =
        [.kprintf .key1 1 1, .kprintf .key3 1 1, .uploadMyBin, .uploadZfBin] := by
  obtain ⟨x, past, last, hx, hpressed, hdid⟩ :=
    keys_pressed ctorIdx_injective (show 4 < 5 by decide) 0 keysClicked ⟨true, 0⟩
  have hclicked : (runCalls 5 BtnHeap.init (keyCalls KeyPin.ctorIdx 0 keysClicked)).map (fun x =>
      ((afterCallbacks ⟨true, 0⟩ x.log).isChassisRunning,
        trace callBack ⟨true, 0⟩ (x.log.map Prod.snd))) =
      some (false, [.kprintf .key1 1 1, .kprintf .key3 1 1, .uploadMyBin, .uploadZfBin]) := by
    decide +kernel
  rw [hx, Option.map_some, Option.some_inj, Prod.mk.injEq] at hclicked
  exact ⟨x, past, last, hx, hpressed, hdid, hclicked⟩

end SmartCar
