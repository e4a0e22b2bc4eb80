import SmartCar.Camera.Csi
import SmartCar.Imperative.CircularQueue

/-!
# Frame buffers in order

Users who leave room in the queue get their buffers back in the order in which they
submitted them, each one once. The driver counts the buffers wrongly once the queue
has wrapped around, which only such users do not notice.
-/

namespace SmartCar

open Imperative Logged

/-! ## Three queues in one -/

/-- Buffers with a frame, buffers that the camera fills, and empty ones, from the oldest
on. -/
structure CsiQueue (α : Type) where
  full : List α
  active : List α
  empty : List α

namespace CsiQueue

variable {α : Type}

def buffers (q : CsiQueue α) : List α := q.full ++ q.active ++ q.empty

def push (b : α) (q : CsiQueue α) : CsiQueue α := { q with empty := q.empty ++ [b] }

end CsiQueue

/-- The handle of a queue. -/
structure QueueOf {α : Type} (h : Csi α) (q : CsiQueue α) : Prop where
  buffers : InCircle csiDriverActualQueueSize h.frameBufferQueue h.queueUserReadIdx q.buffers
  drvWrite : h.queueDrvWriteIdx =
    slotAfter csiDriverActualQueueSize h.queueUserReadIdx q.full.length
  drvRead : h.queueDrvReadIdx =
    slotAfter csiDriverActualQueueSize h.queueUserReadIdx (q.full.length + q.active.length)
  userWrite : h.queueUserWriteIdx =
    slotAfter csiDriverActualQueueSize h.queueUserReadIdx q.buffers.length
  active : h.activeBufferNum = q.active.length

section Counts

/-- What the driver takes for the number of `k` buffers from `start` on. -/
theorem getQueueDelta_eq {start k : Nat} (hstart : start < csiDriverActualQueueSize)
    (hk : k < csiDriverActualQueueSize) :
    csiTransferGetQueueDelta start (slotAfter csiDriverActualQueueSize start k) =
      if start + k < csiDriverActualQueueSize then k else 2 * csiDriverActualQueueSize - k := by
  unfold slotAfter csiTransferGetQueueDelta
  rw [csiDriverActualQueueSize, csiDriverQueueSize] at hstart hk ⊢
  by_cases hwrap : start + k < 2 + 1
  · rw [if_pos hwrap, Nat.mod_eq_of_lt hwrap, if_pos (Nat.le_add_right ..)]
    exact Nat.add_sub_cancel_left ..
  · have hslot : (start + k) % (2 + 1) = start + k - 3 := by omega
    rw [if_neg hwrap, hslot, if_neg (by omega)]
    omega

theorem increaseQueueIdx_slot (start k : Nat) :
    csiTransferIncreaseQueueIdx (slotAfter csiDriverActualQueueSize start k) =
      slotAfter csiDriverActualQueueSize start (k + 1) :=
  slotAfter_succ (by decide)

end Counts

section Operations

variable {α : Type} {h : Csi α} {q : CsiQueue α} {b : α} {rest : List α}

theorem QueueOf.start_lt (hq : QueueOf h q) : h.queueUserReadIdx < csiDriverActualQueueSize :=
  hq.buffers.start_lt

theorem QueueOf.room (hq : QueueOf h q) : q.buffers.length ≤ csiDriverQueueSize :=
  Nat.le_of_lt_succ hq.buffers.room

/-- The buffer in the slot after those before it. -/
theorem QueueOf.at (hq : QueueOf h q) (before : List α) {after : List α}
    (hbuffers : q.buffers = before ++ b :: after) :
    h.frameBufferQueue (slotAfter csiDriverActualQueueSize h.queueUserReadIdx before.length) =
      b := by
  have hitems := hq.buffers
  rw [hbuffers] at hitems
  exact hitems.at

/-- The handle with one more empty buffer. -/
def Csi.pushed (b : α) (h : Csi α) : Csi α :=
  { h with
    frameBufferQueue := Function.update h.frameBufferQueue h.queueUserWriteIdx b
    queueUserWriteIdx := csiTransferIncreaseQueueIdx h.queueUserWriteIdx }

theorem QueueOf.push (hq : QueueOf h q) (hroom : q.buffers.length < csiDriverQueueSize) (b : α) :
    QueueOf (h.pushed b) (q.push b) := by
  have hbuffers : (q.push b).buffers = q.buffers ++ [b] := by
    simp [CsiQueue.push, CsiQueue.buffers]
  refine ⟨?_, hq.drvWrite, hq.drvRead, ?_, hq.active⟩
  · rw [hbuffers, Csi.pushed, hq.userWrite]
    exact hq.buffers.push (Nat.succ_lt_succ hroom) b
  · rw [hbuffers, Csi.pushed, List.length_append]
    dsimp only
    rw [hq.userWrite, increaseQueueIdx_slot]
    rfl

theorem load_eq (h : Csi α) : h.transferLoadBufferToDevice = { h with
    fb1 := if h.nextBufferIdx ≠ 0 then h.fb1 else h.frameBufferQueue h.queueDrvReadIdx
    fb2 := if h.nextBufferIdx ≠ 0 then h.frameBufferQueue h.queueDrvReadIdx else h.fb2
    queueDrvReadIdx := csiTransferIncreaseQueueIdx h.queueDrvReadIdx
    activeBufferNum := (h.activeBufferNum + 1) % 256
    nextBufferIdx := h.nextBufferIdx ^^^ 1 } := by
  unfold Csi.transferLoadBufferToDevice Csi.setRxBufferAddr
  split <;> rfl

theorem QueueOf.load (hq : QueueOf h q) (hempty : q.empty = b :: rest) :
    QueueOf h.transferLoadBufferToDevice { q with active := q.active ++ [b], empty := rest } := by
  have hbuffers : CsiQueue.buffers { q with active := q.active ++ [b], empty := rest } =
      q.buffers := by
    simp [CsiQueue.buffers, hempty]
  have hroom := hq.room
  rw [CsiQueue.buffers, hempty, csiDriverQueueSize] at hroom
  simp only [List.length_append, List.length_cons] at hroom
  rw [load_eq]
  refine ⟨hbuffers ▸ hq.buffers, hq.drvWrite, ?_, hbuffers ▸ hq.userWrite, ?_⟩
  · dsimp only
    rw [hq.drvRead, increaseQueueIdx_slot, List.length_append]
    rfl
  · dsimp only
    rw [hq.active, List.length_append, List.length_singleton, Nat.mod_eq_of_lt (by omega)]

theorem QueueOf.frameDone (hq : QueueOf h q) (hactive : q.active = b :: rest) :
    QueueOf h.frameDone { q with full := q.full ++ [b], active := rest } := by
  have hbuffers : CsiQueue.buffers { q with full := q.full ++ [b], active := rest } =
      q.buffers := by
    simp [CsiQueue.buffers, hactive]
  have hroom := hq.room
  rw [CsiQueue.buffers, hactive, csiDriverQueueSize] at hroom
  simp only [List.length_append, List.length_cons] at hroom
  have hdrvRead := hq.drvRead
  rw [hactive, List.length_cons] at hdrvRead
  refine ⟨hbuffers ▸ hq.buffers, ?_, ?_, hbuffers ▸ hq.userWrite, ?_⟩
  · rw [Csi.frameDone]
    dsimp only
    rw [hq.drvWrite, increaseQueueIdx_slot, List.length_append]
    rfl
  · rw [Csi.frameDone]
    dsimp only
    rw [hdrvRead, List.length_append, List.length_singleton, Nat.add_assoc, Nat.add_comm 1]
  · rw [Csi.frameDone]
    dsimp only
    rw [hq.active, hactive, List.length_cons]
    omega

theorem QueueOf.readIdx_eq (hq : QueueOf h q) {k : Nat} (hk : k < csiDriverActualQueueSize) :
    h.queueUserReadIdx = slotAfter csiDriverActualQueueSize h.queueUserReadIdx k ↔ k = 0 := by
  have hzero := slotAfter_zero hq.start_lt
  constructor
  · intro heq
    exact ((slotAfter_inj (by decide) hk).mp (hzero.trans heq)).symm
  · rintro rfl
    exact hzero.symm

/-- A buffer is taken out, if there is one with a frame. -/
theorem QueueOf.get (hq : QueueOf h q) (hfull : q.full = b :: rest) :
    h.transferGetFullBuffer.1 = some b ∧
      QueueOf h.transferGetFullBuffer.2 { q with full := rest } := by
  have hitems := hq.buffers
  rw [CsiQueue.buffers, hfull, List.cons_append, List.cons_append] at hitems
  have hroom := hitems.room
  have hdrvWrite := hq.drvWrite
  have hdrvRead := hq.drvRead
  have huserWrite := hq.userWrite
  rw [hfull, List.length_cons] at hdrvWrite hdrvRead
  rw [CsiQueue.buffers, hfull, List.cons_append, List.cons_append, List.length_cons] at huserWrite
  simp only [List.length_cons, List.length_append] at hroom
  have hsome : ¬ h.queueUserReadIdx = h.queueDrvWriteIdx := by
    rw [hdrvWrite, hq.readIdx_eq (by omega)]
    exact Nat.succ_ne_zero _
  have hnext : csiTransferIncreaseQueueIdx h.queueUserReadIdx =
      slotAfter csiDriverActualQueueSize h.queueUserReadIdx 1 := by
    have hzero := increaseQueueIdx_slot h.queueUserReadIdx 0
    rwa [slotAfter_zero hq.start_lt] at hzero
  rw [Csi.transferGetFullBuffer, if_neg hsome]
  refine ⟨congrArg some hitems.head, ?_⟩
  dsimp only
  rw [hnext]
  refine ⟨hitems.pop, ?_, ?_, ?_, hq.active⟩
  · rw [slotAfter_add, Nat.add_comm]
    exact hdrvWrite
  · rw [slotAfter_add, Nat.add_comm, Nat.add_right_comm]
    exact hdrvRead
  · rw [slotAfter_add, Nat.add_comm]
    exact huserWrite

theorem QueueOf.get_none (hq : QueueOf h q) (hfull : q.full = []) :
    h.transferGetFullBuffer = (none, h) := by
  rw [Csi.transferGetFullBuffer, if_pos]
  rw [hq.drvWrite, hfull]
  exact (hq.readIdx_eq (Nat.succ_pos _)).mpr rfl

theorem QueueOf.drvRead_lt (hq : QueueOf h q) : h.queueDrvReadIdx < csiDriverActualQueueSize :=
  hq.drvRead ▸ slotAfter_lt hq.start_lt

theorem QueueOf.userWrite_eq (hq : QueueOf h q) : h.queueUserWriteIdx =
    slotAfter csiDriverActualQueueSize h.queueDrvReadIdx q.empty.length := by
  rw [hq.userWrite, hq.drvRead, slotAfter_add, CsiQueue.buffers, List.length_append,
    List.length_append]

/-- The number of empty buffers as the driver sees it. -/
theorem QueueOf.emptyBufferCount (hq : QueueOf h q) :
    h.transferGetEmptyBufferCount =
      if h.queueDrvReadIdx + q.empty.length < csiDriverActualQueueSize then q.empty.length
      else 2 * csiDriverActualQueueSize - q.empty.length := by
  have hroom := hq.buffers.room
  rw [CsiQueue.buffers, List.length_append] at hroom
  rw [Csi.transferGetEmptyBufferCount, hq.userWrite_eq,
    getQueueDelta_eq hq.drvRead_lt (by omega)]

/-- It is right about whether there is any. -/
theorem QueueOf.emptyBufferCount_eq_zero (hq : QueueOf h q) :
    h.transferGetEmptyBufferCount = 0 ↔ q.empty = [] := by
  have hroom := hq.room
  rw [CsiQueue.buffers, List.length_append, csiDriverQueueSize] at hroom
  have hdrvRead := hq.drvRead_lt
  rw [hq.emptyBufferCount, ← List.length_eq_zero_iff]
  rw [csiDriverActualQueueSize, csiDriverQueueSize] at hdrvRead ⊢
  split
  · rfl
  · omega

/-- It takes one for two or more if that one is in the last slot. -/
theorem QueueOf.two_le_emptyBufferCount (hq : QueueOf h q) :
    2 ≤ h.transferGetEmptyBufferCount ↔
      q.empty.length = 2 ∨ q.empty.length = 1 ∧ h.queueDrvReadIdx = csiDriverQueueSize := by
  have hroom := hq.room
  rw [CsiQueue.buffers, List.length_append, csiDriverQueueSize] at hroom
  have hdrvRead := hq.drvRead_lt
  rw [hq.emptyBufferCount]
  rw [csiDriverActualQueueSize, csiDriverQueueSize] at hdrvRead ⊢
  split
  · omega
  · omega

/-- The queue looks full if it is and has not wrapped around. -/
theorem QueueOf.looks_full (hq : QueueOf h q) :
    csiTransferGetQueueDelta h.queueUserReadIdx h.queueUserWriteIdx = csiDriverQueueSize ↔
      q.buffers.length = csiDriverQueueSize ∧ h.queueUserReadIdx = 0 := by
  have hroom := hq.room
  have hstart := hq.start_lt
  rw [hq.userWrite, getQueueDelta_eq hstart hq.buffers.room]
  rw [csiDriverActualQueueSize, csiDriverQueueSize] at hstart ⊢
  rw [csiDriverQueueSize] at hroom
  split
  · omega
  · omega

end Operations

/-! ## Users that leave room -/

section Users

variable {α : Type}

/-- The number of buffers in the queue. -/
def Csi.queued (h : Csi α) : Nat :=
  (h.queueUserWriteIdx + csiDriverActualQueueSize - h.queueUserReadIdx) % csiDriverActualQueueSize

/-- The only empty buffer is in the last slot, where the driver takes it for many. -/
def Csi.LooksMany (h : Csi α) : Prop :=
  h.queueDrvReadIdx = csiDriverQueueSize ∧ h.queueUserWriteIdx = 0

/-- There is room for what is submitted, and if the camera has run out of buffers, it is
not the one that looks like many. -/
def CsiUse.Fits (u : CsiUse α) (h : Csi α) : Prop :=
  match u with
  | submit b =>
      h.queued < csiDriverQueueSize ∧
        (h.transferStarted = true → h.transferOnGoing = false → ¬ (h.pushed b).LooksMany)
  | get => True

/-- The camera is not started twice, and not with a buffer that looks like many. It only
fills buffers that have been loaded. -/
def CsiStep.Fits (x : CsiStep α) (h : Csi α) : Prop :=
  match x with
  | use u => u.Fits h
  | start => h.transferStarted = false ∧ ¬ h.LooksMany
  | stop => True
  | irq fb1Done fb2Done callback =>
      fb1Done ≠ fb2Done →
        0 < h.activeBufferNum ∧ Meets CsiUse.Fits (unlogged CsiUse.exec) h.frameDone callback

instance (h : Csi α) : Decidable h.LooksMany := inferInstanceAs (Decidable (_ ∧ _))

instance (u : CsiUse α) (h : Csi α) : Decidable (u.Fits h) :=
  match u with
  | .submit _ => inferInstanceAs (Decidable (_ ∧ (_ → _ → ¬ _)))
  | .get => .isTrue trivial

instance (x : CsiStep α) (h : Csi α) : Decidable (x.Fits h) :=
  match x with
  | .use u => inferInstanceAs (Decidable (u.Fits h))
  | .start => inferInstanceAs (Decidable (_ ∧ ¬ _))
  | .stop => .isTrue trivial
  | .irq .. => inferInstanceAs (Decidable (_ → _ ∧ _))

/-- The buffers that went into the queue. -/
def submittedOf (log : List (CsiEvent α)) : List α :=
  log.filterMap fun e => match e with
    | .submitted b => some b
    | .got _ => none

/-- The buffers that came out of it. -/
def gotOf (log : List (CsiEvent α)) : List α :=
  log.filterMap fun e => match e with
    | .submitted _ => none
    | .got b => some b

/-- What went into the queue came out of it in the same order, or is still in it. -/
structure Orderly (log : List (CsiEvent α)) (h : Csi α) (q : CsiQueue α) : Prop where
  queue : QueueOf h q
  idle : h.transferOnGoing = false → q.active = []
  started : h.transferStarted = false → h.transferOnGoing = false
  order : submittedOf log = gotOf log ++ q.buffers

variable {log : List (CsiEvent α)} {h : Csi α} {q : CsiQueue α}

theorem QueueOf.queued (hq : QueueOf h q) : h.queued = q.buffers.length := by
  have hroom := hq.room
  have hstart := hq.start_lt
  rw [csiDriverQueueSize] at hroom
  rw [csiDriverActualQueueSize, csiDriverQueueSize] at hstart
  rw [Csi.queued, hq.userWrite, slotAfter, csiDriverActualQueueSize, csiDriverQueueSize]
  omega

/-- Two buffers are loaded into the camera that had none. -/
theorem QueueOf.load_two (hq : QueueOf h q) (hactive : q.active = [])
    (htwo : q.empty.length = 2) :
    QueueOf h.transferLoadBufferToDevice.transferLoadBufferToDevice
      { q with active := q.empty, empty := [] } := by
  obtain ⟨b, c, hempty⟩ := List.length_eq_two.mp htwo
  have hfirst := hq.load hempty
  have hsecond := hfirst.load rfl
  rw [hactive] at hsecond
  rw [hempty]
  exact hsecond

/-- The camera that starts again with two buffers. -/
def Csi.resumed (h : Csi α) : Csi α :=
  let h := { h with transferOnGoing := true, nextBufferIdx := 0 }
  h.transferLoadBufferToDevice.transferLoadBufferToDevice.reflashFifoDma.start

theorem submitEmptyBuffer_eq {b : α} (hroom : ¬ csiTransferGetQueueDelta h.queueUserReadIdx
      h.queueUserWriteIdx = csiDriverQueueSize) :
    h.transferSubmitEmptyBuffer b = (.success,
      if h.transferStarted ∧ h.transferOnGoing = false ∧
        (h.pushed b).transferGetEmptyBufferCount ≥ 2 then (h.pushed b).resumed
      else h.pushed b) := by
  rw [Csi.transferSubmitEmptyBuffer, if_neg hroom]
  exact (apply_ite (Prod.mk CsiStatus.success) _ _ _).symm

theorem Orderly.push (ho : Orderly log h q) (hroom : q.buffers.length < csiDriverQueueSize)
    (b : α) : Orderly (log ++ [.submitted b]) (h.pushed b) (q.push b) where
  queue := ho.queue.push hroom b
  idle := ho.idle
  started := ho.started
  order := by
    have horder := ho.order
    simp only [submittedOf, gotOf] at horder ⊢
    simp [List.filterMap_append, horder, CsiQueue.push, CsiQueue.buffers]

theorem Orderly.resume (ho : Orderly log h q) (hstarted : h.transferStarted = true)
    (hidle : h.transferOnGoing = false) (htwo : q.empty.length = 2) :
    Orderly log h.resumed { q with active := q.empty, empty := [] } := by
  have hactive := ho.idle hidle
  have hloaded : QueueOf { h with transferOnGoing := true, nextBufferIdx := 0 } q := by
    have hq := ho.queue
    exact ⟨hq.buffers, hq.drvWrite, hq.drvRead, hq.userWrite, hq.active⟩
  have htwo := hloaded.load_two hactive htwo
  refine ⟨⟨htwo.buffers, htwo.drvWrite, htwo.drvRead, htwo.userWrite, htwo.active⟩, ?_, ?_, ?_⟩
  · rw [Csi.resumed, load_eq, load_eq]
    intro hnever
    cases hnever
  · rw [Csi.resumed, load_eq, load_eq]
    intro hnever
    change h.transferStarted = false at hnever
    rw [hstarted] at hnever
    cases hnever
  · rw [ho.order, CsiQueue.buffers, hactive]
    simp [CsiQueue.buffers]

theorem Orderly.submit (ho : Orderly log h q) (b : α) (hfits : (CsiUse.submit b).Fits h) :
    ∃ q', Orderly (log ++ ((CsiUse.submit b).exec h).log) ((CsiUse.submit b).exec h).val q' := by
  obtain ⟨hroom, hmany⟩ := hfits
  rw [ho.queue.queued] at hroom
  have hnotFull : ¬ csiTransferGetQueueDelta h.queueUserReadIdx h.queueUserWriteIdx =
      csiDriverQueueSize := by
    rw [ho.queue.looks_full]
    exact fun hfull => Nat.ne_of_lt hroom hfull.1
  have hpush := ho.push hroom b
  have hexec : (CsiUse.submit b).exec h = ⟨(h.transferSubmitEmptyBuffer b).2,
    if (h.transferSubmitEmptyBuffer b).1 = .success then [.submitted b] else []⟩ := rfl
  rw [hexec, submitEmptyBuffer_eq hnotFull, if_pos rfl]
  dsimp only
  split
  next hresume =>
    -- the camera had run out of buffers, and there really are two again
    obtain ⟨hstarted, hidle, hcount⟩ := hresume
    refine ⟨_, hpush.resume hstarted hidle ?_⟩
    refine (hpush.queue.two_le_emptyBufferCount.mp hcount).resolve_right ?_
    rintro ⟨hone, hlast⟩
    refine hmany hstarted hidle ⟨hlast, ?_⟩
    rw [hpush.queue.userWrite_eq, hone, hlast]
    rfl
  next hrest => exact ⟨_, hpush⟩

theorem Orderly.get (ho : Orderly log h q) :
    ∃ q', Orderly (log ++ ((CsiUse.get : CsiUse α).exec h).log)
      ((CsiUse.get : CsiUse α).exec h).val q' := by
  have hexec : (CsiUse.get : CsiUse α).exec h =
    ⟨h.transferGetFullBuffer.2, h.transferGetFullBuffer.1.toList.map .got⟩ := rfl
  rw [hexec]
  cases hfull : q.full with
  | nil =>
      rw [ho.queue.get_none hfull]
      simp only [Option.toList_none, List.map_nil, List.append_nil]
      exact ⟨q, ho⟩
  | cons b rest =>
      obtain ⟨hsome, hq⟩ := ho.queue.get hfull
      rw [hsome]
      refine ⟨_, hq, ?_, ?_, ?_⟩
      · rw [Csi.transferGetFullBuffer]
        split <;> exact ho.idle
      · rw [Csi.transferGetFullBuffer]
        split <;> exact ho.started
      · have horder := ho.order
        rw [CsiQueue.buffers, hfull] at horder
        simp only [submittedOf, gotOf] at horder ⊢
        simp [List.filterMap_append, horder, CsiQueue.buffers]

/-- A use that fits. -/
theorem Orderly.use (ho : Orderly log h q) (u : CsiUse α) (hfits : u.Fits h) :
    ∃ q', Orderly (log ++ (u.exec h).log) (u.exec h).val q' := by
  cases u with
  | submit b => exact ho.submit b hfits
  | get => exact ho.get

theorem Orderly.uses (ho : Orderly log h q) {us : List (CsiUse α)}
    (hfits : Meets CsiUse.Fits (unlogged CsiUse.exec) h us) :
    ∃ q', Orderly (log ++ trace CsiUse.exec h us) (run (unlogged CsiUse.exec) h us) q' :=
  trace_invariant_of_meets (fun log h => ∃ q, Orderly log h q)
    (fun _ u _ ⟨_, ho⟩ hfits => ho.use u hfits) hfits ⟨q, ho⟩

theorem Orderly.start (ho : Orderly log h q) (hstopped : h.transferStarted = false)
    (hmany : ¬ h.LooksMany) : ∃ q', Orderly log h.transferStart.2 q' := by
  rw [Csi.transferStart]
  split
  · exact ⟨q, ho⟩
  next hcount =>
    have hidle := ho.started hstopped
    have hactive := ho.idle hidle
    have htwo := (ho.queue.two_le_emptyBufferCount.mp (Nat.not_lt.mp hcount)).resolve_right (by
      rintro ⟨hone, hlast⟩
      refine hmany ⟨hlast, ?_⟩
      rw [ho.queue.userWrite_eq, hone, hlast]
      rfl)
    have hq : QueueOf { h with nextBufferIdx := 0, activeBufferNum := 0 } q := by
      have hq := ho.queue
      exact ⟨hq.buffers, hq.drvWrite, hq.drvRead, hq.userWrite, by rw [hactive]; rfl⟩
    have hloaded := hq.load_two hactive htwo
    refine ⟨_, ⟨hloaded.buffers, hloaded.drvWrite, hloaded.drvRead, hloaded.userWrite,
      hloaded.active⟩, ?_, ?_, ?_⟩
    · intro hnever
      cases hnever
    · intro hnever
      cases hnever
    · rw [ho.order, CsiQueue.buffers, hactive]
      simp [CsiQueue.buffers]

theorem Orderly.stop (ho : Orderly log h q) :
    Orderly log h.transferStop { q with active := [], empty := q.active ++ q.empty } := by
  have hq := ho.queue
  have hbuffers : CsiQueue.buffers { q with active := [], empty := q.active ++ q.empty } =
      q.buffers := by
    simp [CsiQueue.buffers]
  refine ⟨⟨hbuffers ▸ hq.buffers, hq.drvWrite, hq.drvWrite, hbuffers ▸ hq.userWrite, rfl⟩,
    fun _ => rfl, fun _ => rfl, hbuffers ▸ ho.order⟩

/-- Both frame buffers are done. -/
theorem Orderly.resetActive (ho : Orderly log h q) : Orderly log h.resetActive q := by
  have hq := ho.queue
  unfold Csi.resetActive
  dsimp only
  split
  · split
    · exact ⟨⟨hq.buffers, hq.drvWrite, hq.drvRead, hq.userWrite, hq.active⟩, ho.idle, ho.started,
        ho.order⟩
    · exact ⟨⟨hq.buffers, hq.drvWrite, hq.drvRead, hq.userWrite, hq.active⟩, ho.idle, ho.started,
        ho.order⟩
  · exact ⟨⟨hq.buffers, hq.drvWrite, hq.drvRead, hq.userWrite, hq.active⟩, ho.idle, ho.started,
      ho.order⟩

theorem Orderly.frameDone (ho : Orderly log h q) (hactive : 0 < h.activeBufferNum) :
    ∃ q', Orderly log h.frameDone q' := by
  rw [ho.queue.active] at hactive
  obtain ⟨b, rest, hcons⟩ := List.exists_cons_of_length_pos hactive
  refine ⟨_, ho.queue.frameDone hcons, fun hidle => ?_, ho.started, ?_⟩
  · have hnone := ho.idle hidle
    rw [hcons] at hnone
    cases hnone
  · rw [ho.order, CsiQueue.buffers, hcons]
    simp [CsiQueue.buffers]

theorem Orderly.afterCallback (ho : Orderly log h q) : ∃ q', Orderly log h.afterCallback q' := by
  rw [Csi.afterCallback]
  split
  next hnone =>
    have hq := ho.queue
    rw [hq.active, List.length_eq_zero_iff] at hnone
    exact ⟨q, ⟨hq.buffers, hq.drvWrite, hq.drvRead, hq.userWrite, hq.active⟩, fun _ => hnone,
      fun _ => rfl, ho.order⟩
  next hsome =>
    split
    next hcount =>
      rw [ne_eq, ho.queue.emptyBufferCount_eq_zero] at hcount
      obtain ⟨b, rest, hempty⟩ := List.exists_cons_of_ne_nil hcount
      refine ⟨_, ho.queue.load hempty, ?_, ?_, ?_⟩
      · intro hidle
        rw [load_eq] at hidle
        have hactive := ho.idle hidle
        rw [ho.queue.active, hactive] at hsome
        exact absurd rfl hsome
      · rw [load_eq]
        exact ho.started
      · rw [ho.order, CsiQueue.buffers, hempty]
        simp [CsiQueue.buffers]
    · exact ⟨q, ho⟩

/-- Every step of the driver and of users that leave room keeps the order. -/
theorem Orderly.step (ho : Orderly log h q) (x : CsiStep α) (hfits : x.Fits h) :
    ∃ q', Orderly (log ++ (x.exec h).log) (x.exec h).val q' := by
  cases x with
  | use u => exact ho.use u hfits
  | start =>
      rw [CsiStep.exec, log_pure, List.append_nil]
      exact ho.start hfits.1 hfits.2
  | stop =>
      rw [CsiStep.exec, log_pure, List.append_nil]
      exact ⟨_, ho.stop⟩
  | irq fb1Done fb2Done callback =>
      rw [CsiStep.exec, Csi.transferHandleIRQ]
      by_cases hboth : fb1Done = true ∧ fb2Done = true
      · rw [if_pos hboth, log_pure, List.append_nil]
        exact ⟨q, ho.resetActive⟩
      · rw [if_neg hboth]
        by_cases hone : fb1Done = true ∨ fb2Done = true
        · have hdiffer : fb1Done ≠ fb2Done := by
            rintro rfl
            exact hboth ⟨hone.elim id id, hone.elim id id⟩
          obtain ⟨hactive, huses⟩ := hfits hdiffer
          obtain ⟨q', hframe⟩ := ho.frameDone hactive
          obtain ⟨q'', hcallback⟩ := hframe.uses huses
          rw [if_pos hone, log_bind, log_pure, List.append_nil]
          exact hcallback.afterCallback
        · rw [if_neg hone, log_pure, List.append_nil]
          exact ⟨q, ho⟩

theorem create_orderly (addr : α) :
    Orderly [] (Csi.transferCreateHandle addr) ⟨[], [], []⟩ where
  queue := ⟨.nil (Nat.succ_pos _), rfl, rfl, rfl, rfl⟩
  idle := fun _ => rfl
  started := fun _ => rfl
  order := rfl

/-- The handle after the steps `xs`. -/
def csiRun (addr : α) (xs : List (CsiStep α)) : Csi α :=
  run (unlogged CsiStep.exec) (.transferCreateHandle addr) xs

/-- The buffers that go into the queue and come out of it in the steps `xs`. -/
def csiLog (addr : α) (xs : List (CsiStep α)) : List (CsiEvent α) :=
  trace CsiStep.exec (.transferCreateHandle addr) xs

theorem csiRun_orderly (addr : α) {xs : List (CsiStep α)}
    (hfits : Meets CsiStep.Fits (unlogged CsiStep.exec) (.transferCreateHandle addr) xs) :
    ∃ q, Orderly (csiLog addr xs) (csiRun addr xs) q :=
  trace_invariant_of_meets (fun log h => ∃ q, Orderly log h q)
    (fun _ x _ ⟨_, ho⟩ hfits => ho.step x hfits) hfits ⟨_, create_orderly addr⟩

/-- Whatever users submit and take out, in callbacks or between interrupts, and whenever
they start and stop the camera: as long as they leave room, the buffers come out of the
queue in the order in which they went in, each one once, and the others are still in
it. -/
theorem csi_in_order (addr : α) (xs : List (CsiStep α))
    (hfits : Meets CsiStep.Fits (unlogged CsiStep.exec) (.transferCreateHandle addr) xs) :
    ∃ q : CsiQueue α, QueueOf (csiRun addr xs) q ∧
      submittedOf (csiLog addr xs) = gotOf (csiLog addr xs) ++ q.buffers := by
  obtain ⟨q, ho⟩ := csiRun_orderly addr hfits
  exact ⟨q, ho.queue, ho.order⟩

/-- Two buffers, the first of which goes round. -/
def goesRound : List (CsiStep Nat) :=
  [.use (.submit 1), .use (.submit 2), .start, .irq true false [.get, .submit 1]]

theorem csi_in_order_two : ∃ q : CsiQueue Nat, QueueOf (csiRun 0 goesRound) q ∧
    submittedOf (csiLog 0 goesRound) = gotOf (csiLog 0 goesRound) ++ q.buffers :=
  csi_in_order 0 goesRound (by decide)

theorem QueueOf.submit_refused (hq : QueueOf h q) (b : α) :
    (h.transferSubmitEmptyBuffer b).1 = .queueFull ↔
      q.buffers.length = 2 ∧ h.queueUserReadIdx = 0 := by
  have hlooks := hq.looks_full
  by_cases hfull : csiTransferGetQueueDelta h.queueUserReadIdx h.queueUserWriteIdx =
    csiDriverQueueSize
  · rw [Csi.transferSubmitEmptyBuffer, if_pos hfull]
    exact iff_of_true rfl (hlooks.mp hfull)
  · rw [submitEmptyBuffer_eq hfull]
    exact iff_of_false (by simp) fun hwrap => hfull (hlooks.mpr hwrap)

theorem QueueOf.start_refused (hq : QueueOf h q) : h.transferStart.1 = .noEmptyBuffer ↔
    q.empty = [] ∨ q.empty.length = 1 ∧ h.queueDrvReadIdx ≠ 2 := by
  have hcount := hq.two_le_emptyBufferCount
  have hroom := hq.room
  rw [CsiQueue.buffers, List.length_append] at hroom
  rw [csiDriverQueueSize] at hcount hroom
  rw [← List.length_eq_zero_iff]
  by_cases hless : h.transferGetEmptyBufferCount < 2
  · rw [Csi.transferStart, if_pos hless]
    refine iff_of_true rfl ?_
    have hnot := mt hcount.mpr (Nat.not_le.mpr hless)
    omega
  · rw [Csi.transferStart, if_neg hless]
    refine iff_of_false (by simp) ?_
    have hmany := hcount.mp (Nat.not_lt.mp hless)
    omega

/-- What such users may not rely on: a submission to a full queue is only refused if the
oldest buffer is in slot 0, and a start with a single empty buffer only if that one is
not in the last slot. -/
theorem csi_refuses (addr : α) (xs : List (CsiStep α))
    (hfits : Meets CsiStep.Fits (unlogged CsiStep.exec) (.transferCreateHandle addr) xs) :
    ∃ q : CsiQueue α, QueueOf (csiRun addr xs) q ∧
      (∀ b, ((csiRun addr xs).transferSubmitEmptyBuffer b).1 = .queueFull ↔
        q.buffers.length = 2 ∧ (csiRun addr xs).queueUserReadIdx = 0) ∧
      ((csiRun addr xs).transferStart.1 = .noEmptyBuffer ↔
        q.empty = [] ∨ q.empty.length = 1 ∧ (csiRun addr xs).queueDrvReadIdx ≠ 2) := by
  obtain ⟨q, ho⟩ := csiRun_orderly addr hfits
  exact ⟨q, ho.queue, ho.queue.submit_refused, ho.queue.start_refused⟩

/-- A third buffer is not refused. -/
theorem csi_refuses_two : ((csiRun 0 goesRound).transferSubmitEmptyBuffer 3).1 ≠ .queueFull := by
  obtain ⟨q, -, hsubmit, -⟩ := csi_refuses 0 goesRound (by decide)
  rw [ne_eq, hsubmit]
  exact fun hwrap => absurd hwrap.2 (by decide)

end Users

end SmartCar
