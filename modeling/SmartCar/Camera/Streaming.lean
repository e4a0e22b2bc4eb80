import SmartCar.Camera.Frames

/-!
# Two buffers by turns

As `csi_isr` puts each buffer back at once, the camera always has both, in whatever order
frames are done, interrupts come and `main` goes on. An interrupt that comes in time hands
over the buffer with the newest frame, and the camera goes on with the other one. An
interrupt is one step with respect to the camera: no frame is done inside the handler.
-/

namespace SmartCar

open Imperative Logged

/-- The camera has two buffers, of which `a` is the next to be done, and `b` follows. -/
structure Streams {α : Type} (h : Csi α) (a b : α) : Prop where
  queue : QueueOf h ⟨[], [a, b], []⟩
  onGoing : h.transferOnGoing = true
  enabled : h.enabled = true
  next_lt : h.nextBufferIdx < 2
  next : h.frameBuffer h.nextBufferIdx = a
  other : h.frameBuffer (h.nextBufferIdx ^^^ 1) = b
  differ : a ≠ b

section Driver

variable {α : Type} {h : Csi α} {a b : α}

theorem lt_two_cases {k : Nat} (hk : k < 2) : k = 0 ∨ k = 1 := by omega

theorem getFullBuffer_eq (h : Csi α) : h.transferGetFullBuffer.2 = { h with
    queueUserReadIdx :=
      if h.queueUserReadIdx = h.queueDrvWriteIdx then h.queueUserReadIdx
      else csiTransferIncreaseQueueIdx h.queueUserReadIdx } := by
  unfold Csi.transferGetFullBuffer
  split <;> rfl

theorem Streams.fb_of_zero (hs : Streams h a b) (hzero : h.nextBufferIdx = 0) :
    h.fb1 = a ∧ h.fb2 = b := by
  have hnext := hs.next
  have hother := hs.other
  rw [hzero] at hnext hother
  exact ⟨hnext, hother⟩

theorem Streams.fb_of_one (hs : Streams h a b) (hone : h.nextBufferIdx = 1) :
    h.fb1 = b ∧ h.fb2 = a := by
  have hnext := hs.next
  have hother := hs.other
  rw [hone] at hnext hother
  exact ⟨hother, hnext⟩

/-- The handle that `csi_isr` leaves. -/
def Csi.putBack (a : α) (h : Csi α) : Csi α := h.frameDone.transferGetFullBuffer.2.pushed a

/-- The full buffer is taken out. -/
theorem Streams.get (hs : Streams h a b) :
    h.frameDone.transferGetFullBuffer.1 = some a ∧
      QueueOf h.frameDone.transferGetFullBuffer.2 ⟨[], [b], []⟩ :=
  (hs.queue.frameDone rfl).get rfl

theorem Streams.putBack_queue (hs : Streams h a b) : QueueOf (h.putBack a) ⟨[], [b], [a]⟩ :=
  hs.get.2.push Nat.one_lt_two a

/-- The queue has room for the buffer, and the camera need not be started again. -/
theorem Streams.submit (hs : Streams h a b) :
    (h.frameDone.transferGetFullBuffer.2.transferSubmitEmptyBuffer a).2 = h.putBack a := by
  have hq := hs.get.2
  have hroom : ¬ csiTransferGetQueueDelta h.frameDone.transferGetFullBuffer.2.queueUserReadIdx
      h.frameDone.transferGetFullBuffer.2.queueUserWriteIdx = csiDriverQueueSize := by
    rw [hq.looks_full]
    intro hfull
    cases hfull.1
  have honGoing : h.frameDone.transferGetFullBuffer.2.transferOnGoing = true := by
    rw [getFullBuffer_eq]
    exact hs.onGoing
  rw [submitEmptyBuffer_eq hroom, if_neg]
  · rfl
  · rintro ⟨-, hidle, -⟩
    rw [honGoing] at hidle
    cases hidle

theorem Streams.afterCallback_eq (hs : Streams h a b) :
    (h.putBack a).afterCallback = (h.putBack a).transferLoadBufferToDevice := by
  have hq := hs.putBack_queue
  have hactive : (h.putBack a).activeBufferNum ≠ 0 := by
    rw [hq.active]
    exact Nat.one_ne_zero
  have hempty : (h.putBack a).transferGetEmptyBufferCount ≠ 0 := by
    rw [ne_eq, hq.emptyBufferCount_eq_zero]
    exact List.cons_ne_nil _ _
  rw [Csi.afterCallback, if_neg hactive, if_pos hempty]

theorem load_frameBuffer (h : Csi α) (hnext : h.nextBufferIdx < 2) :
    h.transferLoadBufferToDevice.frameBuffer h.nextBufferIdx =
        h.frameBufferQueue h.queueDrvReadIdx ∧
      h.transferLoadBufferToDevice.frameBuffer (h.nextBufferIdx ^^^ 1) =
        h.frameBuffer (h.nextBufferIdx ^^^ 1) := by
  rw [load_eq, Csi.frameBuffer, Csi.frameBuffer, Csi.frameBuffer]
  rcases lt_two_cases hnext with hzero | hone
  · rw [hzero]
    exact ⟨rfl, rfl⟩
  · rw [hone]
    exact ⟨rfl, rfl⟩

theorem toggle_toggle (k : Nat) : k ^^^ 1 ^^^ 1 = k := by
  rw [Nat.xor_assoc, Nat.xor_self, Nat.xor_zero]

theorem toggle_lt {k : Nat} (hk : k < 2) : k ^^^ 1 < 2 := by
  rcases lt_two_cases hk with rfl | rfl
  · decide
  · decide

theorem putBack_other (h : Csi α) (a : α) (k : Nat) :
    (h.putBack a).nextBufferIdx = h.nextBufferIdx ∧ (h.putBack a).filling = h.filling ∧
      (h.putBack a).transferOnGoing = h.transferOnGoing ∧ (h.putBack a).enabled = h.enabled ∧
      (h.putBack a).frameBuffer k = h.frameBuffer k := by
  rw [Csi.putBack, getFullBuffer_eq]
  exact ⟨rfl, rfl, rfl, rfl, rfl⟩

/-- The buffer with the frame is loaded again, behind the other one. -/
theorem Streams.reload (hs : Streams h a b) :
    Streams (h.putBack a).afterCallback b a ∧
      (h.putBack a).afterCallback.nextBufferIdx = h.nextBufferIdx ^^^ 1 ∧
      (h.putBack a).afterCallback.filling = h.filling := by
  have hq := hs.putBack_queue
  obtain ⟨hidx, hfilling, honGoing, henabled, hother⟩ :=
    putBack_other h a (h.nextBufferIdx ^^^ 1)
  have hdrvRead : (h.putBack a).frameBufferQueue (h.putBack a).queueDrvReadIdx = a := by
    rw [hq.drvRead]
    exact hq.at [b] rfl
  have hnext : (h.putBack a).nextBufferIdx < 2 := hidx ▸ hs.next_lt
  obtain ⟨hloaded, hkept⟩ := load_frameBuffer (h.putBack a) hnext
  rw [hidx, hdrvRead] at hloaded
  rw [hidx, hother, hs.other] at hkept
  have hload : (h.putBack a).transferLoadBufferToDevice.nextBufferIdx = h.nextBufferIdx ^^^ 1 := by
    rw [load_eq]
    exact congrArg (· ^^^ 1) hidx
  rw [hs.afterCallback_eq]
  refine ⟨⟨hq.load rfl, ?_, ?_, ?_, ?_, ?_, hs.differ.symm⟩, hload, ?_⟩
  · rw [load_eq]
    exact honGoing.trans hs.onGoing
  · rw [load_eq]
    exact henabled.trans hs.enabled
  · rw [hload]
    exact toggle_lt hs.next_lt
  · rw [hload]
    exact hkept
  · rw [hload, toggle_toggle]
    exact hloaded
  · rw [load_eq]
    exact hfilling

/-- After a reset the camera fills the same two buffers, from frame buffer 0 on. -/
theorem Streams.resetActive (hs : Streams h a b) :
    Streams h.resetActive a b ∧ h.resetActive.nextBufferIdx = 0 ∧ h.resetActive.filling = 0 := by
  have hq := hs.queue
  have htwo : h.activeBufferNum = 2 := hq.active
  have hfirst : h.frameBufferQueue h.queueDrvWriteIdx = a := by
    rw [hq.drvWrite]
    exact hq.at [] rfl
  have hsecond : h.frameBufferQueue (csiTransferIncreaseQueueIdx h.queueDrvWriteIdx) = b := by
    rw [hq.drvWrite, increaseQueueIdx_slot]
    exact hq.at [a] rfl
  have hreset : h.resetActive = { h with
      fb1 := a
      fb2 := b
      nextBufferIdx := 0
      filling := 0
      enabled := true } := by
    have hstop : h.stop.activeBufferNum = 2 := htwo
    have hone : 1 ≤ h.stop.activeBufferNum := hstop ▸ Nat.one_lt_two.le
    rw [Csi.resetActive, ← hfirst, ← hsecond]
    dsimp only
    rw [if_pos hone, if_pos hstop]
    rfl
  rw [hreset]
  refine ⟨⟨⟨hq.buffers, hq.drvWrite, hq.drvRead, hq.userWrite, hq.active⟩, hs.onGoing, rfl,
    Nat.two_pos, rfl, ?_, hs.differ⟩, rfl, rfl⟩
  change Csi.frameBuffer _ (0 ^^^ 1) = b
  rfl

theorem load_two_eq (h : Csi α) (hnext : h.nextBufferIdx = 0) :
    h.transferLoadBufferToDevice.transferLoadBufferToDevice = { h with
      fb1 := h.frameBufferQueue h.queueDrvReadIdx
      fb2 := h.frameBufferQueue (csiTransferIncreaseQueueIdx h.queueDrvReadIdx)
      queueDrvReadIdx :=
        csiTransferIncreaseQueueIdx (csiTransferIncreaseQueueIdx h.queueDrvReadIdx)
      activeBufferNum := ((h.activeBufferNum + 1) % 256 + 1) % 256
      nextBufferIdx := 0 } := by
  rw [load_eq, load_eq]
  simp [hnext]

/-- The camera is started with two buffers. -/
theorem QueueOf.start_streams (hq : QueueOf h ⟨[], [], [a, b]⟩) (hdiffer : a ≠ b) :
    Streams h.transferStart.2 a b ∧ h.transferStart.2.nextBufferIdx = 0 ∧
      h.transferStart.2.filling = 0 := by
  have hcount : ¬ h.transferGetEmptyBufferCount < 2 := by
    rw [Nat.not_lt, hq.two_le_emptyBufferCount]
    exact .inl rfl
  have hidle : QueueOf { h with nextBufferIdx := 0, activeBufferNum := 0 } ⟨[], [], [a, b]⟩ :=
    ⟨hq.buffers, hq.drvWrite, hq.drvRead, hq.userWrite, rfl⟩
  have hloaded := hidle.load_two rfl rfl
  have hfirst : h.frameBufferQueue h.queueDrvReadIdx = a := by
    rw [hq.drvRead]
    exact hq.at [] rfl
  have hsecond : h.frameBufferQueue (csiTransferIncreaseQueueIdx h.queueDrvReadIdx) = b := by
    rw [hq.drvRead, increaseQueueIdx_slot]
    exact hq.at [a] rfl
  rw [Csi.transferStart, if_neg hcount]
  rw [load_two_eq _ rfl] at hloaded
  dsimp only
  rw [load_two_eq _ rfl]
  refine ⟨⟨⟨hloaded.buffers, hloaded.drvWrite, hloaded.drvRead, hloaded.userWrite,
    hloaded.active⟩, rfl, rfl, Nat.two_pos, hfirst, ?_, hdiffer⟩, rfl, rfl⟩
  change Csi.frameBuffer _ (0 ^^^ 1) = b
  exact hsecond

/-- Which buffer the camera fills does not matter to the driver. -/
theorem Streams.fill (hs : Streams h a b) (filling : Nat) :
    Streams { h with filling := filling } a b :=
  ⟨⟨hs.queue.buffers, hs.queue.drvWrite, hs.queue.drvRead, hs.queue.userWrite, hs.queue.active⟩,
    hs.onGoing, hs.enabled, hs.next_lt, hs.next, hs.other, hs.differ⟩

end Driver

/-! ## The camera and its user -/

/-- What `csi_isr` does to its user when it has a buffer. -/
def CsiUser.handed (image : CsiImage) (u : CsiUser) : CsiUser :=
  { u with image, finishFlag := true }.semRelease

/-- The camera with the buffers `a` and `b`. With one interrupt pending, the frame in `a` is
done, and the camera is about to write over `b`. -/
structure Streaming (c : Camera) (a b : CsiImage) : Prop where
  streams : Streams c.csi a b
  image : c.user.finishFlag = true → c.user.image = b
  filling : c.fb1Done = false → c.fb2Done = false → c.csi.filling = c.csi.nextBufferIdx
  pending : c.fb1Done ≠ c.fb2Done →
    c.csi.filling = c.csi.nextBufferIdx ^^^ 1 ∧
      (c.fb1Done = true ↔ c.csi.nextBufferIdx = 0) ∧ c.content a = some c.frames

section Steps

variable {c : Camera} {a b : CsiImage}

theorem Streams.csiIsr_run {h : Csi CsiImage} (hs : Streams h a b) (u : CsiUser) :
    (csiIsr h.frameDone).run u = (h.putBack a, u.handed a) := by
  have hget : h.frameDone.transferGetFullBuffer =
      (some a, h.frameDone.transferGetFullBuffer.2) :=
    Prod.ext hs.get.1 rfl
  rw [csiIsr, hget]
  dsimp only
  rw [hs.submit]
  cases a with
  | csi1 => rfl
  | csi2 => rfl

/-- An interrupt for one frame buffer hands over its buffer. -/
theorem Streaming.irq_one (hs : Streaming c a b) (hone : c.fb1Done ≠ c.fb2Done) :
    c.irq = { c with
      csi := (c.csi.putBack a).afterCallback
      user := c.user.handed a
      fb1Done := false
      fb2Done := false } := by
  have hboth : ¬ (c.fb1Done = true ∧ c.fb2Done = true) :=
    fun hboth => hone (hboth.1.trans hboth.2.symm)
  have hany : c.fb1Done = true ∨ c.fb2Done = true := by
    cases hfb1 : c.fb1Done with
    | true => exact .inl rfl
    | false =>
        right
        cases hfb2 : c.fb2Done with
        | true => rfl
        | false => exact absurd (hfb1.trans hfb2.symm) hone
  have hrun : (c.csi.transferHandleIRQ csiIsr c.fb1Done c.fb2Done).run c.user =
      ((c.csi.putBack a).afterCallback, c.user.handed a) := by
    rw [Csi.transferHandleIRQ, if_neg hboth, if_pos hany, StateT.run_bind,
      hs.streams.csiIsr_run]
    rfl
  rw [Camera.irq, hrun]
  dsimp only
  rw [if_neg hboth]

theorem Camera.irq_both (hboth : c.fb1Done = true ∧ c.fb2Done = true) :
    c.irq = { c with
      csi := c.csi.resetActive
      content := Function.update c.content
        (c.csi.resetActive.frameBuffer c.csi.resetActive.filling) none
      fb1Done := false
      fb2Done := false } := by
  have hrun : (c.csi.transferHandleIRQ csiIsr c.fb1Done c.fb2Done).run c.user =
      (c.csi.resetActive, c.user) := by
    rw [Csi.transferHandleIRQ, if_pos hboth]
    rfl
  rw [Camera.irq, hrun]
  dsimp only
  rw [if_pos hboth]

theorem Camera.irq_none (hfb1 : c.fb1Done = false) (hfb2 : c.fb2Done = false) : c.irq = c := by
  obtain ⟨csi, user, fb1Done, fb2Done, content, frames⟩ := c
  subst hfb1 hfb2
  rfl

theorem CsiUser.handed_eq (image : CsiImage) (u : CsiUser) : u.handed image = { u with
    image
    finishFlag := true
    value := if u.main = .blocked ∨ 65535 ≤ u.value then u.value else u.value + 1
    main := if u.main = .blocked then .woken else u.main } := by
  obtain ⟨old, finishFlag, value, main⟩ := u
  rw [CsiUser.handed, CsiUser.semRelease]
  dsimp only
  split
  · rfl
  next hother =>
    have hmain : ¬ main = .blocked := hother
    rw [if_neg hmain]
    simp only [hmain, false_or]
    split
    next hless => rw [if_neg (Nat.not_le.mpr hless)]
    next hmore => rw [if_pos (Nat.not_lt.mp hmore)]

/-- What a frame that is done changes. -/
theorem Streaming.frameEnd_eq (hs : Streaming c a b) : c.frameEnd = { c with
    csi := { c.csi with filling := c.csi.filling ^^^ 1 }
    fb1Done := c.fb1Done || c.csi.filling == 0
    fb2Done := c.fb2Done || c.csi.filling != 0
    content := Function.update
      (Function.update c.content (c.csi.frameBuffer c.csi.filling) (some (c.frames + 1)))
      (c.csi.frameBuffer (c.csi.filling ^^^ 1)) none
    frames := c.frames + 1 } :=
  if_pos hs.streams.enabled

/-- A second frame makes both interrupts pending. -/
theorem Streaming.none_pending (hs : Streaming c a b)
    (hone : (c.fb1Done || c.csi.filling == 0) ≠ (c.fb2Done || c.csi.filling != 0)) :
    c.fb1Done = false ∧ c.fb2Done = false := by
  by_cases hsame : c.fb1Done = c.fb2Done
  · have hfb1 : c.fb1Done = false := by
      rw [Bool.eq_false_iff]
      intro hfb1
      rw [← hsame, hfb1] at hone
      exact hone rfl
    exact ⟨hfb1, hsame ▸ hfb1⟩
  · obtain ⟨hfilling, hnext, -⟩ := hs.pending hsame
    exfalso
    apply hone
    rcases lt_two_cases hs.streams.next_lt with hzero | hnot
    · have hfb1 := hnext.mpr hzero
      rw [hzero] at hfilling
      rw [hfb1, hfilling]
      simp
    · have hfb1 : c.fb1Done = false := by
        rw [Bool.eq_false_iff, ne_eq, hnext, hnot]
        exact Nat.one_ne_zero
      have hfb2 : c.fb2Done = true := by
        rw [hfb1] at hsame
        exact Bool.eq_true_of_not_eq_false fun hfb2 => hsame hfb2.symm
      rw [hnot] at hfilling
      rw [hfb2, hfilling]
      simp

theorem Streaming.frameEnd (hs : Streaming c a b) : Streaming c.frameEnd a b := by
  have hstreams := hs.streams
  rw [hs.frameEnd_eq]
  refine ⟨hstreams.fill _, hs.image, ?_, ?_⟩
  · intro hfb1 hfb2
    rw [Bool.or_eq_false_iff] at hfb1 hfb2
    have hzero : c.csi.filling = 0 := by simpa using hfb2.2
    exact absurd hzero (by simpa using hfb1.2)
  · intro hone
    obtain ⟨hfb1, hfb2⟩ := hs.none_pending hone
    have hfilling := hs.filling hfb1 hfb2
    dsimp only
    rw [hfb1, hfilling, hstreams.next, hstreams.other, Function.update_of_ne hstreams.differ,
      Function.update_self]
    exact ⟨rfl, by simp, rfl⟩

theorem Streaming.irq (hs : Streaming c a b) : ∃ a' b', Streaming c.irq a' b' := by
  by_cases hsame : c.fb1Done = c.fb2Done
  · cases hfb1 : c.fb1Done with
    | true =>
        -- the frames are lost, and the buffers stay in order
        obtain ⟨hstreams, hnext, hfilling⟩ := hs.streams.resetActive
        rw [Camera.irq_both ⟨hfb1, hsame ▸ hfb1⟩]
        refine ⟨a, b, hstreams, hs.image, fun _ _ => ?_, fun hone => absurd rfl hone⟩
        exact hfilling.trans hnext.symm
    | false =>
        rw [Camera.irq_none hfb1 (hsame ▸ hfb1)]
        exact ⟨a, b, hs⟩
  · -- the buffers change places
    obtain ⟨hstreams, hnext, hfilling⟩ := hs.streams.reload
    rw [hs.irq_one hsame]
    refine ⟨b, a, hstreams, fun _ => ?_, fun _ _ => ?_, fun hone => absurd rfl hone⟩
    · dsimp only
      rw [CsiUser.handed_eq]
    · calc
        _ = c.csi.filling := hfilling
        _ = c.csi.nextBufferIdx ^^^ 1 := (hs.pending hsame).1
        _ = _ := hnext.symm

/-- `main` does not touch the camera. -/
theorem mainStep_eq (c : Camera) : ∃ value main,
    c.mainStep.val = { c with user := { c.user with value, main } } := by
  rw [Camera.mainStep]
  split
  · exact ⟨_, _, rfl⟩
  · split
    · exact ⟨_, _, rfl⟩
    · exact ⟨_, _, rfl⟩
  · exact ⟨_, _, rfl⟩
  · exact ⟨_, _, rfl⟩
  · exact ⟨_, _, rfl⟩
  · exact ⟨_, _, rfl⟩

theorem Streaming.mainStep (hs : Streaming c a b) : Streaming c.mainStep.val a b := by
  obtain ⟨value, main, hmain⟩ := mainStep_eq c
  rw [hmain]
  exact ⟨hs.streams, hs.image, hs.filling, hs.pending⟩

end Steps

/-! ## Every order of steps -/

theorem init_streaming (addr : CsiImage) : Streaming (.init addr) .csi1 .csi2 := by
  have hempty := (create_orderly addr).queue
  have hsubmitted := (hempty.push Nat.two_pos CsiImage.csi1).push Nat.one_lt_two CsiImage.csi2
  have hfirst : ((Csi.transferCreateHandle addr).transferSubmitEmptyBuffer .csi1).2 =
      (Csi.transferCreateHandle addr).pushed .csi1 := rfl
  have hsecond : (((Csi.transferCreateHandle addr).pushed .csi1).transferSubmitEmptyBuffer
      .csi2).2 = ((Csi.transferCreateHandle addr).pushed .csi1).pushed .csi2 := rfl
  obtain ⟨hstreams, hnext, hfilling⟩ := hsubmitted.start_streams (by decide)
  rw [Camera.init]
  dsimp only
  rw [hfirst, hsecond]
  exact ⟨hstreams, Bool.noConfusion, fun _ _ => hfilling.trans hnext.symm,
    fun hone => absurd rfl hone⟩

theorem cameraRun_streaming (addr : CsiImage) (xs : List CameraStep) :
    ∃ a b, Streaming (cameraRun addr xs) a b := by
  refine run_invariant (fun c => ∃ a b, Streaming c a b) ?_ ⟨_, _, init_streaming addr⟩ xs
  rintro x c ⟨a, b, hs⟩
  cases x with
  | frameEnd => exact ⟨a, b, hs.frameEnd⟩
  | irq => exact hs.irq
  | main => exact ⟨a, b, hs.mainStep⟩

/-- In whatever order frames are done, interrupts come, each one step with respect to the
camera, and `main` goes on: the camera never runs out of buffers, and they are always
different ones. Unless an interrupt is pending, it leaves the image that it handed over
last alone. -/
theorem camera_streams (addr : CsiImage) (xs : List CameraStep) :
    let c := cameraRun addr xs
    c.csi.transferOnGoing = true ∧ c.csi.enabled = true ∧ c.csi.activeBufferNum = 2 ∧
      c.csi.fb1 ≠ c.csi.fb2 ∧
      (c.user.finishFlag = true → c.fb1Done = false → c.fb2Done = false →
        c.csi.frameBuffer c.csi.filling ≠ c.user.image) := by
  dsimp only
  obtain ⟨a, b, hs⟩ := cameraRun_streaming addr xs
  have hstreams := hs.streams
  refine ⟨hstreams.onGoing, hstreams.enabled, hstreams.queue.active, ?_, ?_⟩
  · rcases lt_two_cases hstreams.next_lt with hzero | hone
    · rw [(hstreams.fb_of_zero hzero).1, (hstreams.fb_of_zero hzero).2]
      exact hstreams.differ
    · rw [(hstreams.fb_of_one hone).1, (hstreams.fb_of_one hone).2]
      exact hstreams.differ.symm
  · intro hfinish hfb1 hfb2
    rw [hs.filling hfb1 hfb2, hstreams.next, hs.image hfinish]
    exact hstreams.differ

/-- What an interrupt does after any such run. If one frame buffer is done, `csi_isr` hands
over its buffer, which holds the newest frame, and wakes `main` or lets it take the
semaphore; if none or both are, `main` does not notice. -/
theorem camera_hands_over (addr : CsiImage) (xs : List CameraStep) :
    let c := cameraRun addr xs
    if c.fb1Done = c.fb2Done then c.irq.user = c.user
    else
      c.irq.user.image = (if c.fb1Done then c.csi.fb1 else c.csi.fb2) ∧
        c.irq.content c.irq.user.image = some c.frames ∧ c.irq.user.finishFlag = true ∧
        if c.user.main = .blocked then c.irq.user.main = .woken
        else c.irq.user.main = c.user.main ∧ 0 < c.irq.user.value := by
  dsimp only
  obtain ⟨a, b, hs⟩ := cameraRun_streaming addr xs
  generalize cameraRun addr xs = c at hs ⊢
  split
  next hsame =>
    cases hfb1 : c.fb1Done with
    | true => rw [Camera.irq_both ⟨hfb1, hsame ▸ hfb1⟩]
    | false => rw [Camera.irq_none hfb1 (hsame ▸ hfb1)]
  next hone =>
    obtain ⟨-, hnext, hcontent⟩ := hs.pending hone
    rw [hs.irq_one hone, CsiUser.handed_eq]
    refine ⟨?_, hcontent, rfl, ?_⟩
    · cases hfb1 : c.fb1Done with
      | true => exact (hs.streams.fb_of_zero (hnext.mp hfb1)).1.symm
      | false =>
          have hnot : c.csi.nextBufferIdx ≠ 0 := by
            rw [ne_eq, ← hnext, hfb1]
            exact Bool.noConfusion
          have hidx := (lt_two_cases hs.streams.next_lt).resolve_left hnot
          exact (hs.streams.fb_of_one hidx).2.symm
    · by_cases hblocked : c.user.main = .blocked
      · simp [hblocked]
      · simp only [hblocked, if_false, false_or, true_and]
        split
        next hfull => exact Nat.lt_of_lt_of_le (by decide) hfull
        next hmore => exact Nat.succ_pos _

end SmartCar
