import Mathlib.Data.List.Perm.Subperm
import SmartCar.Buttons.Gestures
import SmartCar.Kernel.Slist

/-!
# The list of the started buttons

`agile_button.c` keeps the started buttons in a linked list whose nodes are part of
the records. Callers may create, delete, start and stop buttons in any order; the
thread walks along the list. The buttons do not get in each other's way: each one
goes through what it would go through alone.
-/

namespace SmartCar

open Imperative Logged

/-! ## Memory -/

/-- The address of a record. -/
abbrev BtnAddr := Nat

/-- A node of the list: `agile_btn_list`, or the field `slist` of a record. -/
inductive BtnNode where
  | agileBtnList
  | slist (a : BtnAddr)
deriving DecidableEq

/-- The records that have been allocated, with the pointers of the list. -/
structure BtnHeap where
  next : BtnNode → Option BtnNode
  btns : BtnAddr → Option AgileBtn

def BtnHeap.init : BtnHeap := ⟨fun _ => none, fun _ => none⟩

namespace BtnHeap

/-- `agile_btn_create` with the memory at `a`. -/
def agileBtnCreate (a : BtnAddr) (pin : KeyPin) (activeLogic : UInt8) (now : Nat) (h : BtnHeap) :
    BtnHeap where
  next := Function.update h.next (.slist a) none
  btns := Function.update h.btns a (some (AgileBtn.create pin activeLogic now))

def agileBtnDelete (fuel : Nat) (a : BtnAddr) (h : BtnHeap) : Option BtnHeap := do
  let next ← rtSlistRemove fuel h.next .agileBtnList (.slist a)
  return { next := Function.update next (.slist a) none, btns := Function.update h.btns a none }

def agileBtnStart (fuel : Nat) (a : BtnAddr) (now : Nat) (h : BtnHeap) : Option BtnHeap :=
  match h.btns a with
  | none => some h
  | some btn =>
      if btn.active then some h
      else do
        let next ← rtSlistAppend fuel h.next .agileBtnList (.slist a)
        return { next, btns := Function.update h.btns a (some (btn.start now)) }

def agileBtnStop (fuel : Nat) (a : BtnAddr) (h : BtnHeap) : Option BtnHeap :=
  match h.btns a with
  | none => some h
  | some btn =>
      if !btn.active then some h
      else do
        let next ← rtSlistRemove fuel h.next .agileBtnList (.slist a)
        return {
          next := Function.update next (.slist a) none
          btns := Function.update h.btns a (some btn.stop) }

/-- A call that only changes a record. -/
def setBtn (a : BtnAddr) (set : AgileBtn → AgileBtn) (h : BtnHeap) : BtnHeap :=
  { h with btns := Function.update h.btns a ((h.btns a).map set) }

end BtnHeap

/-- The body of the loop in `btn_process`. -/
def processNode (poll : BtnAddr → BtnPoll) (btns : BtnAddr → Option AgileBtn) :
    BtnNode → Logged (BtnAddr × BtnSignal) (BtnAddr → Option AgileBtn)
  | .agileBtnList => return btns
  | .slist a =>
      match btns a with
      | none => return btns
      | some btn => do
          let btn ← relabel (fun s => (a, s)) (btn.process (poll a))
          return Function.update btns a (some btn)

def processNodes (poll : BtnAddr → BtnPoll) (btns : BtnAddr → Option AgileBtn) :
    List BtnNode → Logged (BtnAddr × BtnSignal) (BtnAddr → Option AgileBtn)
  | [] => return btns
  | node :: nodes => do
      let btns ← processNode poll btns node
      processNodes poll btns nodes

/-- A round of `btn_process`. -/
def btnProcess (fuel : Nat) (poll : BtnAddr → BtnPoll) (h : BtnHeap) :
    Option (Logged (BtnAddr × BtnSignal) BtnHeap) := do
  let nodes ← rtSlistForEach fuel h.next .agileBtnList
  return (fun btns => { h with btns }) <$> processNodes poll h.btns nodes

/-! ## Calls -/

/-- A call of the package, or a round of its thread. -/
inductive BtnCall where
  | create (a : BtnAddr) (pin : KeyPin) (activeLogic : UInt8) (now : Nat)
  | delete (a : BtnAddr)
  | start (a : BtnAddr) (now : Nat)
  | stop (a : BtnAddr)
  | setEliminationTime (a : BtnAddr) (ms : UInt8)
  | setHoldCycleTime (a : BtnAddr) (ms : UInt32)
  | setEventCb (a : BtnAddr) (event : AgileBtnEvent) (cb : Option BtnCallback)
  | round (poll : BtnAddr → BtnPoll)

namespace BtnCall

def exec (fuel : Nat) (h : BtnHeap) : BtnCall → Option (Logged (BtnAddr × BtnSignal) BtnHeap)
  | create a pin activeLogic now => some (pure (h.agileBtnCreate a pin activeLogic now))
  | delete a => pure <$> h.agileBtnDelete fuel a
  | start a now => pure <$> h.agileBtnStart fuel a now
  | stop a => pure <$> h.agileBtnStop fuel a
  | setEliminationTime a ms => some (pure (h.setBtn a (AgileBtn.setEliminationTime ms)))
  | setHoldCycleTime a ms => some (pure (h.setBtn a (AgileBtn.setHoldCycleTime ms)))
  | setEventCb a event cb =>
      some (pure (h.setBtn a fun btn => (btn.setEventCb event cb).getD btn))
  | round poll => btnProcess fuel poll h

/-- What a call does to the button at `a` if there is no other one. -/
def alone (a : BtnAddr) : BtnCall → Option AgileBtn → Logged BtnSignal (Option AgileBtn)
  | create a' pin activeLogic now, btn =>
      return if a' = a then some (AgileBtn.create pin activeLogic now) else btn
  | delete a', btn => return if a' = a then none else btn
  | start a' now, btn =>
      return if a' = a then btn.map fun b => if b.active then b else b.start now else btn
  | stop a', btn => return if a' = a then btn.map AgileBtn.stop else btn
  | setEliminationTime a' ms, btn =>
      return if a' = a then btn.map (AgileBtn.setEliminationTime ms) else btn
  | setHoldCycleTime a' ms, btn =>
      return if a' = a then btn.map (AgileBtn.setHoldCycleTime ms) else btn
  | setEventCb a' event cb, btn =>
      return if a' = a then btn.map fun b => (b.setEventCb event cb).getD b else btn
  | round _, none => return none
  | round poll, some btn =>
      if btn.active then some <$> btn.process (poll a) else return some btn

/-- The started buttons after a call, in the order of their starts. -/
def listed (started : List BtnAddr) : BtnCall → List BtnAddr
  | start a _ => if a ∈ started then started else started ++ [a]
  | stop a | delete a => started.erase a
  | _ => started

/-- The addresses in use after a call. -/
def allocates (alloc : List BtnAddr) : BtnCall → List BtnAddr
  | create a _ _ _ => a :: alloc
  | delete a => alloc.erase a
  | _ => alloc

/-- `rt_malloc` returns memory that is not in use, and callers use only buttons that
they have created and not deleted. -/
def Allowed (alloc : List BtnAddr) : BtnCall → Prop
  | create a _ _ _ => a ∉ alloc
  | delete a | start a _ | stop a | setEliminationTime a _ | setHoldCycleTime a _
  | setEventCb a _ _ => a ∈ alloc
  | round _ => True

end BtnCall

/-- Every call is allowed. -/
def CallsAllowed : List BtnAddr → List BtnCall → Prop
  | _, [] => True
  | alloc, c :: calls => c.Allowed alloc ∧ CallsAllowed (c.allocates alloc) calls

/-- A run of calls, unless a loop runs out of fuel. -/
def runCalls (fuel : Nat) : BtnHeap → List BtnCall →
    Option (Logged (BtnAddr × BtnSignal) BtnHeap)
  | h, [] => some (pure h)
  | h, c :: calls => do
      let x ← c.exec fuel h
      let y ← runCalls fuel x.val calls
      return ⟨y.val, x.log ++ y.log⟩

/-- The signals of the button at `a`. -/
def signalsOf (a : BtnAddr) (log : List (BtnAddr × BtnSignal)) : List BtnSignal :=
  log.filterMap fun e => if e.1 = a then some e.2 else none

/-! ## Steps -/

/-- The list holds the started buttons, each active one among the allocated ones. -/
structure BtnHeap.Sound (alloc started : List BtnAddr) (h : BtnHeap) : Prop where
  links : Links h.next .agileBtnList (started.map BtnNode.slist)
  active : ∀ a, a ∈ started ↔ ∃ btn, h.btns a = some btn ∧ btn.active = true
  isSome : ∀ a, a ∈ alloc ↔ (h.btns a).isSome
  nodup : alloc.Nodup

/-- Each button goes through what it would go through alone. -/
structure KeepsApart (c : BtnCall) (h : BtnHeap) (x : Logged (BtnAddr × BtnSignal) BtnHeap) :
    Prop where
  btns : ∀ a, x.val.btns a = (c.alone a (h.btns a)).val
  log : ∀ a, signalsOf a x.log = (c.alone a (h.btns a)).log

section Steps

variable {h : BtnHeap} {alloc started : List BtnAddr} {a : BtnAddr} {fuel : Nat}

theorem slist_injective : Function.Injective BtnNode.slist := fun _ _ heq => BtnNode.slist.inj heq

theorem slist_mem {as : List BtnAddr} :
    BtnNode.slist a ∈ BtnNode.agileBtnList :: as.map BtnNode.slist ↔ a ∈ as := by
  simp

namespace BtnHeap.Sound

theorem started_nodup (hs : h.Sound alloc started) : started.Nodup :=
  (List.nodup_cons.mp hs.links.nodup).2.of_map

theorem started_subset (hs : h.Sound alloc started) : started ⊆ alloc := by
  intro b hb
  obtain ⟨btn, hbtn, -⟩ := (hs.active b).mp hb
  rw [hs.isSome, hbtn]
  rfl

theorem length_lt (hs : h.Sound alloc started) (hfuel : alloc.length < fuel) :
    (started.map BtnNode.slist).length < fuel := by
  rw [List.length_map]
  exact (List.subperm_of_subset hs.started_nodup hs.started_subset).length_le.trans_lt hfuel

/-- The pointer of a node that is not in the list. -/
theorem links_update (hs : Links h.next .agileBtnList (started.map BtnNode.slist))
    (ha : a ∉ started) (n : Option BtnNode) :
    Links (Function.update h.next (.slist a) n) .agileBtnList (started.map BtnNode.slist) := by
  apply hs.congr
  intro m hm
  apply Function.update_of_ne
  rintro rfl
  exact ha (slist_mem.mp hm)

/-- A button taken out of the list. -/
theorem unlink (hs : h.Sound alloc started) (hfuel : alloc.length < fuel) (a : BtnAddr) :
    ∃ next, rtSlistRemove fuel h.next .agileBtnList (.slist a) = some next ∧
      Links (Function.update next (.slist a) none) .agileBtnList
        ((started.erase a).map BtnNode.slist) := by
  obtain ⟨next, hremove, hlinks⟩ := rtSlistRemove_spec (n := BtnNode.slist a) hs.links
    (hs.length_lt hfuel)
  rw [← List.map_erase slist_injective] at hlinks
  exact ⟨next, hremove, links_update (h := ⟨next, h.btns⟩) hlinks
    hs.started_nodup.not_mem_erase none⟩

end BtnHeap.Sound

theorem agileBtnDelete_sound (hs : h.Sound alloc started) (ha : a ∈ alloc)
    (hfuel : alloc.length < fuel) : ∃ h', h.agileBtnDelete fuel a = some h' ∧
      h'.Sound (alloc.erase a) (started.erase a) ∧ h'.btns = Function.update h.btns a none := by
  obtain ⟨next, hremove, hlinks⟩ := hs.unlink hfuel a
  refine ⟨⟨Function.update next (.slist a) none, Function.update h.btns a none⟩, ?_,
    ⟨hlinks, ?_, ?_, hs.nodup.erase a⟩, rfl⟩
  · rw [BtnHeap.agileBtnDelete, hremove]
    rfl
  · intro b
    rw [hs.started_nodup.mem_erase_iff, hs.active]
    rcases eq_or_ne b a with rfl | hne
    · simp
    · simp [hne]
  · intro b
    rw [hs.nodup.mem_erase_iff, hs.isSome]
    rcases eq_or_ne b a with rfl | hne
    · simp
    · simp [hne]

/-- A new record in place of one that is allocated. -/
theorem BtnHeap.Sound.set (hs : h.Sound alloc started) {next : BtnNode → Option BtnNode}
    {started' : List BtnAddr} {btn : AgileBtn} (ha : a ∈ alloc)
    (hlinks : Links next .agileBtnList (started'.map BtnNode.slist))
    (hself : a ∈ started' ↔ btn.active = true)
    (hothers : ∀ b, b ≠ a → (b ∈ started' ↔ b ∈ started)) :
    (BtnHeap.mk next (Function.update h.btns a (some btn))).Sound alloc started' where
  links := hlinks
  active := by
    intro b
    rcases eq_or_ne b a with rfl | hne
    · simp [hself]
    · simp [hne, hothers b hne, hs.active]
  isSome := by
    intro b
    rcases eq_or_ne b a with rfl | hne
    · simp [ha]
    · simp [hne, hs.isSome]
  nodup := hs.nodup

theorem agileBtnStart_sound (hs : h.Sound alloc started) (ha : a ∈ alloc)
    (hfuel : alloc.length < fuel) (now : Nat) : ∃ h', h.agileBtnStart fuel a now = some h' ∧
      h'.Sound alloc (if a ∈ started then started else started ++ [a]) ∧
      h'.btns = Function.update h.btns a
        ((h.btns a).map fun b => if b.active then b else b.start now) := by
  obtain ⟨btn, hbtn⟩ := Option.isSome_iff_exists.mp ((hs.isSome a).mp ha)
  have hactive : a ∈ started ↔ btn.active = true := by simp [hs.active, hbtn]
  cases hon : btn.active with
  | true =>
      refine ⟨h, ?_, ?_, ?_⟩
      · rw [BtnHeap.agileBtnStart, hbtn]
        simp [hon]
      · rw [if_pos (hactive.mpr hon)]
        exact hs
      · rw [hbtn, Option.map_some, hon, if_pos rfl, ← hbtn, Function.update_eq_self]
  | false =>
      have hnot : a ∉ started := fun hmem => by simp [hactive.mp hmem] at hon
      obtain ⟨next, hadd, hlinks⟩ := rtSlistAppend_spec (n := BtnNode.slist a) hs.links
        (fun hmem => hnot (slist_mem.mp hmem)) (hs.length_lt hfuel)
      refine ⟨⟨next, Function.update h.btns a (some (btn.start now))⟩, ?_, ?_, ?_⟩
      · rw [BtnHeap.agileBtnStart, hbtn]
        simp [hon, hadd]
      · rw [if_neg hnot]
        refine hs.set ha ?_ (by simp [AgileBtn.start]) ?_
        · simpa using hlinks
        · intro b hne
          simp [hne]
      · rw [hbtn, Option.map_some, hon, if_neg Bool.false_ne_true]

theorem agileBtnStop_sound (hs : h.Sound alloc started) (ha : a ∈ alloc)
    (hfuel : alloc.length < fuel) : ∃ h', h.agileBtnStop fuel a = some h' ∧
      h'.Sound alloc (started.erase a) ∧
      h'.btns = Function.update h.btns a ((h.btns a).map AgileBtn.stop) := by
  obtain ⟨btn, hbtn⟩ := Option.isSome_iff_exists.mp ((hs.isSome a).mp ha)
  have hactive : a ∈ started ↔ btn.active = true := by simp [hs.active, hbtn]
  cases hon : btn.active with
  | true =>
      obtain ⟨next, hremove, hlinks⟩ := hs.unlink hfuel a
      refine ⟨⟨Function.update next (.slist a) none, Function.update h.btns a (some btn.stop)⟩,
        ?_, ?_, ?_⟩
      · rw [BtnHeap.agileBtnStop, hbtn]
        simp [hon, hremove]
      · refine hs.set ha hlinks ?_ ?_
        · exact iff_of_false hs.started_nodup.not_mem_erase (by simp [AgileBtn.stop])
        · exact fun b hne => List.mem_erase_of_ne hne
      · rw [hbtn, Option.map_some]
  | false =>
      have hnot : a ∉ started := fun hmem => by simp [hactive.mp hmem] at hon
      have hsame : btn.stop = btn := by rw [AgileBtn.stop, ← hon]
      refine ⟨h, ?_, ?_, ?_⟩
      · rw [BtnHeap.agileBtnStop, hbtn]
        simp [hon]
      · rw [List.erase_of_not_mem hnot]
        exact hs
      · rw [hbtn, Option.map_some, hsame, ← hbtn, Function.update_eq_self]

/-! ## Rounds -/

theorem active_round {p : BtnPoll} {btn btn' : AgileBtn} {signals : List BtnSignal}
    (hround : BtnRound p btn signals btn') : btn'.active = btn.active := by
  cases hround <;> rfl

theorem signalsOf_append (a : BtnAddr) (xs ys : List (BtnAddr × BtnSignal)) :
    signalsOf a (xs ++ ys) = signalsOf a xs ++ signalsOf a ys :=
  List.filterMap_append

theorem signalsOf_own (a : BtnAddr) (signals : List BtnSignal) :
    signalsOf a (signals.map fun s => (a, s)) = signals := by
  simp [signalsOf, List.filterMap_map]

theorem signalsOf_other {b : BtnAddr} (hne : b ≠ a) (signals : List BtnSignal) :
    signalsOf a (signals.map fun s => (b, s)) = [] := by
  simp [signalsOf, List.filterMap_map, hne]

variable {poll : BtnAddr → BtnPoll} {btns : BtnAddr → Option AgileBtn}

/-- What a node of the loop does to the button at `a`. -/
theorem processNode_spec (poll : BtnAddr → BtnPoll) (btns : BtnAddr → Option AgileBtn)
    (a b : BtnAddr) :
    (processNode poll btns (.slist b)).val a =
        (if b = a then (btns a).map fun btn => (btn.process (poll a)).val else btns a) ∧
      signalsOf a (processNode poll btns (.slist b)).log =
        if b = a then (btns a).elim [] fun btn => (btn.process (poll a)).log else [] := by
  unfold processNode
  dsimp only
  cases hb : btns b with
  | none =>
      rcases eq_or_ne b a with rfl | hne
      · simp [hb, signalsOf]
      · simp [hne, signalsOf]
  | some btn =>
      have hlog : (relabel (fun s => (b, s)) (btn.process (poll b)) >>= fun btn =>
          (pure (Function.update btns b (some btn)) : Logged (BtnAddr × BtnSignal) _)).log =
          (btn.process (poll b)).log.map fun s => (b, s) := List.append_nil _
      rw [hlog]
      rcases eq_or_ne b a with rfl | hne
      · rw [if_pos rfl, if_pos rfl, hb, signalsOf_own]
        exact ⟨Function.update_self .., rfl⟩
      · rw [if_neg hne, if_neg hne, signalsOf_other hne]
        exact ⟨Function.update_of_ne hne.symm .., rfl⟩

theorem processNodes_spec (poll : BtnAddr → BtnPoll) (btns : BtnAddr → Option AgileBtn)
    {as : List BtnAddr} (hnodup : as.Nodup) (a : BtnAddr) :
    (processNodes poll btns (as.map BtnNode.slist)).val a =
        (if a ∈ as then (btns a).map fun btn => (btn.process (poll a)).val else btns a) ∧
      signalsOf a (processNodes poll btns (as.map BtnNode.slist)).log =
        if a ∈ as then (btns a).elim [] fun btn => (btn.process (poll a)).log else [] := by
  induction as generalizing btns with
  | nil => exact ⟨rfl, rfl⟩
  | cons b as ih =>
      obtain ⟨hb, has⟩ := List.nodup_cons.mp hnodup
      obtain ⟨hval, hlog⟩ := processNode_spec poll btns a b
      obtain ⟨hval', hlog'⟩ := ih (processNode poll btns (.slist b)).val has
      have hsplit : signalsOf a (processNodes poll btns ((b :: as).map BtnNode.slist)).log =
          signalsOf a (processNode poll btns (.slist b)).log ++ signalsOf a (processNodes poll
            (processNode poll btns (.slist b)).val (as.map BtnNode.slist)).log :=
        signalsOf_append a _ _
      rw [hsplit, hlog, hlog', List.map_cons, processNodes, val_bind, hval', hval]
      rcases eq_or_ne b a with rfl | hne
      · simp [hb]
      · simp [hne, hne.symm]

theorem btnProcess_sound (hs : h.Sound alloc started) (hfuel : alloc.length < fuel)
    (poll : BtnAddr → BtnPoll) : ∃ x, btnProcess fuel poll h = some x ∧
      x.val.Sound alloc started ∧ KeepsApart (.round poll) h x := by
  have hspec := processNodes_spec poll h.btns hs.started_nodup
  have halone : ∀ a, (if a ∈ started then (h.btns a).map fun btn => (btn.process (poll a)).val
        else h.btns a) = ((BtnCall.round poll).alone a (h.btns a)).val ∧
      (if a ∈ started then (h.btns a).elim [] fun btn => (btn.process (poll a)).log else []) =
        ((BtnCall.round poll).alone a (h.btns a)).log := by
    intro a
    cases hbtn : h.btns a with
    | none => simp [BtnCall.alone]
    | some btn =>
        have hactive : a ∈ started ↔ btn.active = true := by simp [hs.active, hbtn]
        simp only [hactive, BtnCall.alone]
        split
        · exact ⟨rfl, (List.append_nil _).symm⟩
        · exact ⟨rfl, rfl⟩
  refine ⟨(fun btns => { h with btns }) <$> processNodes poll h.btns (started.map BtnNode.slist),
    ?_, ⟨hs.links, ?_, ?_, hs.nodup⟩, ?_, ?_⟩
  · rw [btnProcess, rtSlistForEach, hs.links.visit_eq (hs.length_lt hfuel).le]
    rfl
  · intro b
    rw [hs.active, val_map]
    dsimp only
    rw [(hspec b).1]
    cases hbtn : h.btns b with
    | none => simp
    | some btn =>
        have hround := active_round (process_round (poll b) btn)
        split <;> simp [hround]
  · intro b
    rw [hs.isSome, val_map]
    dsimp only
    rw [(hspec b).1]
    split <;> simp
  · exact fun b => (hspec b).1.trans (halone b).1
  · intro b
    refine Eq.trans ?_ ((hspec b).2.trans (halone b).2)
    exact congrArg (signalsOf b) (List.append_nil _)

theorem setBtn_sound (hs : h.Sound alloc started) (ha : a ∈ alloc) {set : AgileBtn → AgileBtn}
    (hset : ∀ btn, (set btn).active = btn.active) : (h.setBtn a set).Sound alloc started := by
  obtain ⟨btn, hbtn⟩ := Option.isSome_iff_exists.mp ((hs.isSome a).mp ha)
  rw [BtnHeap.setBtn, hbtn]
  refine hs.set ha hs.links ?_ fun _ _ => Iff.rfl
  simp [hs.active, hbtn, hset]

theorem agileBtnCreate_sound (hs : h.Sound alloc started) (ha : a ∉ alloc) (pin : KeyPin)
    (activeLogic : UInt8) (now : Nat) :
    (h.agileBtnCreate a pin activeLogic now).Sound (a :: alloc) started := by
  have hnot : a ∉ started := fun hmem => ha (hs.started_subset hmem)
  refine ⟨BtnHeap.Sound.links_update hs.links hnot none, ?_, ?_, List.nodup_cons.mpr ⟨ha, hs.nodup⟩⟩
  · intro b
    rcases eq_or_ne b a with rfl | hne
    · simp [BtnHeap.agileBtnCreate, AgileBtn.create, hnot]
    · simp [BtnHeap.agileBtnCreate, hne, hs.active]
  · intro b
    rcases eq_or_ne b a with rfl | hne
    · simp [BtnHeap.agileBtnCreate]
    · simp [BtnHeap.agileBtnCreate, hne, hs.isSome]

theorem KeepsApart.of_update {c : BtnCall} {h' : BtnHeap} {btn : Option AgileBtn}
    (hbtns : h'.btns = Function.update h.btns a btn)
    (halone : ∀ b, c.alone b (h.btns b) = pure (if a = b then btn else h.btns b)) :
    KeepsApart c h (pure h') where
  btns := by
    intro b
    rw [halone, val_pure, val_pure, hbtns]
    rcases eq_or_ne b a with rfl | hne
    · simp
    · simp [hne, hne.symm]
  log := by
    intro b
    rw [halone]
    rfl

/-- An allowed call returns, keeps the list and leaves the other buttons alone. -/
theorem exec_sound (hs : h.Sound alloc started) {c : BtnCall} (hc : c.Allowed alloc)
    (hfuel : alloc.length < fuel) : ∃ x, c.exec fuel h = some x ∧
      x.val.Sound (c.allocates alloc) (c.listed started) ∧ KeepsApart c h x := by
  cases c with
  | create a pin activeLogic now =>
      refine ⟨_, rfl, agileBtnCreate_sound hs hc pin activeLogic now, ?_⟩
      exact KeepsApart.of_update rfl fun _ => rfl
  | delete a =>
      obtain ⟨h', hdelete, hsound, hbtns⟩ := agileBtnDelete_sound hs hc hfuel
      refine ⟨pure h', by rw [BtnCall.exec, hdelete]; rfl, hsound, ?_⟩
      exact KeepsApart.of_update hbtns fun _ => rfl
  | start a now =>
      obtain ⟨h', hstart, hsound, hbtns⟩ := agileBtnStart_sound hs hc hfuel now
      refine ⟨pure h', by rw [BtnCall.exec, hstart]; rfl, hsound, ?_⟩
      refine KeepsApart.of_update hbtns fun b => ?_
      rcases eq_or_ne a b with rfl | hne
      · rfl
      · simp only [BtnCall.alone, if_neg hne]
  | stop a =>
      obtain ⟨h', hstop, hsound, hbtns⟩ := agileBtnStop_sound hs hc hfuel
      refine ⟨pure h', by rw [BtnCall.exec, hstop]; rfl, hsound, ?_⟩
      refine KeepsApart.of_update hbtns fun b => ?_
      rcases eq_or_ne a b with rfl | hne
      · rfl
      · simp only [BtnCall.alone, if_neg hne]
  | setEliminationTime a ms | setHoldCycleTime a ms =>
      refine ⟨_, rfl, setBtn_sound hs hc fun _ => rfl, ?_⟩
      refine KeepsApart.of_update rfl fun b => ?_
      rcases eq_or_ne a b with rfl | hne
      · rfl
      · simp only [BtnCall.alone, if_neg hne]
  | setEventCb a event cb =>
      refine ⟨_, rfl, setBtn_sound hs hc fun btn => ?_, ?_⟩
      · obtain ⟨eventCb, heq⟩ := btn.getD_setEventCb event cb
        rw [heq]
      · refine KeepsApart.of_update rfl fun b => ?_
        rcases eq_or_ne a b with rfl | hne
        · rfl
        · simp only [BtnCall.alone, if_neg hne]
  | round poll => exact btnProcess_sound hs hfuel poll

end Steps

/-! ## Runs -/

/-- The number of buttons that a run creates. -/
def created (calls : List BtnCall) : Nat :=
  calls.countP fun c => match c with
    | .create .. => true
    | _ => false

section Runs

variable {h : BtnHeap} {alloc started : List BtnAddr} {fuel : Nat} {calls : List BtnCall}

theorem length_allocates (c : BtnCall) (alloc : List BtnAddr) :
    (c.allocates alloc).length ≤ alloc.length + created [c] := by
  cases c with
  | create => exact le_rfl
  | delete a => exact List.length_erase_le.trans (Nat.le_add_right _ _)
  | start | stop | setEliminationTime | setHoldCycleTime | setEventCb | round => exact le_rfl

theorem runCalls_sound (hs : h.Sound alloc started) (hcalls : CallsAllowed alloc calls)
    (hfuel : alloc.length + created calls < fuel) : ∃ x, runCalls fuel h calls = some x ∧
      x.val.Sound (calls.foldl BtnCall.allocates alloc) (calls.foldl BtnCall.listed started) ∧
      ∀ a, x.val.btns a = run (unlogged (BtnCall.alone a)) (h.btns a) calls ∧
        signalsOf a x.log = trace (BtnCall.alone a) (h.btns a) calls := by
  induction calls generalizing h alloc started with
  | nil => exact ⟨pure h, rfl, hs, fun _ => ⟨rfl, rfl⟩⟩
  | cons c calls ih =>
      have hcount : created (c :: calls) = created [c] + created calls := by
        rw [created, ← List.singleton_append, List.countP_append]
        rfl
      have hlength := length_allocates c alloc
      have hfuel' : alloc.length < fuel := by omega
      obtain ⟨x, hx, hsound, hbtns, hlog⟩ := exec_sound hs hcalls.1 hfuel'
      obtain ⟨y, hy, hsound', hapart⟩ := ih hsound hcalls.2 (by omega)
      refine ⟨⟨y.val, x.log ++ y.log⟩, ?_, hsound', fun a => ?_⟩
      · rw [runCalls, hx]
        change (runCalls fuel x.val calls).bind _ = _
        rw [hy]
        rfl
      · obtain ⟨hbtns', hlog'⟩ := hapart a
        rw [hbtns] at hbtns' hlog'
        refine ⟨hbtns', ?_⟩
        rw [signalsOf_append, hlog, hlog']
        rfl

theorem sound_init : BtnHeap.init.Sound [] [] :=
  ⟨rfl, by simp [BtnHeap.init], by simp [BtnHeap.init], List.nodup_nil⟩

/-- Whatever is created, deleted, started and stopped in whatever order: no loop of the
package runs on, and behind `agile_btn_list` come the buttons that have been started
and not been stopped or deleted since, each once and in the order of their starts. -/
theorem agileBtnList_holds (calls : List BtnCall) (hcalls : CallsAllowed [] calls)
    (hfuel : created calls < fuel) : ∃ x, runCalls fuel BtnHeap.init calls = some x ∧
      Links x.val.next .agileBtnList
        ((calls.foldl BtnCall.listed []).map BtnNode.slist) ∧
      ∀ a, a ∈ calls.foldl BtnCall.listed [] ↔
        ∃ btn, x.val.btns a = some btn ∧ btn.active = true := by
  obtain ⟨x, hx, hsound, -⟩ := runCalls_sound sound_init hcalls (by simpa using hfuel)
  exact ⟨x, hx, hsound.links, hsound.active⟩

/-- Two buttons are started, the first is stopped and started again. -/
theorem agileBtnList_holds_two : ∃ x, runCalls 3 BtnHeap.init
      [.create 1 .key1 0 0, .create 2 .key2 0 0, .start 1 5, .start 2 6, .stop 1, .start 1 7] =
        some x ∧
      Links x.val.next .agileBtnList [.slist 2, .slist 1] ∧
      ∀ a, a ∈ [2, 1] ↔ ∃ btn, x.val.btns a = some btn ∧ btn.active = true :=
  agileBtnList_holds _ (by simp [CallsAllowed, BtnCall.Allowed, BtnCall.allocates]) (by decide)

/-- Each button ends up and calls back as if it were the only one. -/
theorem buttons_apart (calls : List BtnCall) (hcalls : CallsAllowed [] calls)
    (hfuel : created calls < fuel) : ∃ x, runCalls fuel BtnHeap.init calls = some x ∧
      ∀ a, x.val.btns a = run (unlogged (BtnCall.alone a)) none calls ∧
        signalsOf a x.log = trace (BtnCall.alone a) none calls := by
  obtain ⟨x, hx, -, hapart⟩ := runCalls_sound sound_init hcalls (by simpa using hfuel)
  exact ⟨x, hx, hapart⟩

/-- A button is deleted while another one goes on. -/
theorem buttons_apart_deleted : ∃ x, runCalls 3 BtnHeap.init
      [.create 1 .key1 0 0, .create 2 .key2 0 0, .start 2 5, .start 1 6, .round fun _ => ⟨0, 9, 9⟩,
        .delete 2, .round fun _ => ⟨0, 30, 30⟩] = some x ∧
      ∀ a, x.val.btns a = run (unlogged (BtnCall.alone a)) none
          [.create 1 .key1 0 0, .create 2 .key2 0 0, .start 2 5, .start 1 6,
            .round fun _ => ⟨0, 9, 9⟩, .delete 2, .round fun _ => ⟨0, 30, 30⟩] ∧
        signalsOf a x.log = trace (BtnCall.alone a) none
          [.create 1 .key1 0 0, .create 2 .key2 0 0, .start 2 5, .start 1 6,
            .round fun _ => ⟨0, 9, 9⟩, .delete 2, .round fun _ => ⟨0, 30, 30⟩] :=
  buttons_apart _ (by simp [CallsAllowed, BtnCall.Allowed, BtnCall.allocates]) (by decide)

end Runs

end SmartCar
