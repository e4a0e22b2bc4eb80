import SmartCar.Imperative.Trace

/-!
# The camera interface

`fsl_csi.c`: the frame buffers of the camera go round a circular queue. The user puts
empty ones in and takes full ones out; the driver loads two of them into the camera,
which fills them by turns, and its interrupt moves on when one is full.
-/

namespace SmartCar

open Imperative Logged

/-- `CSI_DRIVER_QUEUE_SIZE` -/
def csiDriverQueueSize : Nat := 2

/-- `CSI_DRIVER_ACTUAL_QUEUE_SIZE` -/
def csiDriverActualQueueSize : Nat := csiDriverQueueSize + 1

inductive CsiStatus where
  | success
  | noEmptyBuffer
  | queueFull
deriving DecidableEq

/-- `csi_handle_t` and what the driver sees of the camera; `α` are the addresses of frame
buffers. -/
structure Csi (α : Type) where
  frameBufferQueue : Nat → α
  queueUserReadIdx : Nat
  queueUserWriteIdx : Nat
  queueDrvReadIdx : Nat
  queueDrvWriteIdx : Nat
  activeBufferNum : Nat
  nextBufferIdx : Nat
  transferStarted : Bool
  transferOnGoing : Bool
  /-- `CSIDMASA_FB1` -/
  fb1 : α
  /-- `CSIDMASA_FB2` -/
  fb2 : α
  /-- `CSI_CSICR18_CSI_ENABLE_MASK` -/
  enabled : Bool
  /-- which of the two the camera fills, 0 or 1 -/
  filling : Nat

/-- `CSI_TransferGetQueueDelta` -/
def csiTransferGetQueueDelta (startIdx endIdx : Nat) : Nat :=
  if endIdx ≥ startIdx then endIdx - startIdx
  else startIdx + csiDriverActualQueueSize - endIdx

/-- `CSI_TransferIncreaseQueueIdx` -/
def csiTransferIncreaseQueueIdx (idx : Nat) : Nat :=
  if idx + 1 ≥ csiDriverActualQueueSize then 0 else idx + 1

namespace Csi

variable {α : Type}

/-- `CSI_TransferCreateHandle`; the registers hold `addr`, whatever it is. -/
def transferCreateHandle (addr : α) : Csi α where
  frameBufferQueue := fun _ => addr
  queueUserReadIdx := 0
  queueUserWriteIdx := 0
  queueDrvReadIdx := 0
  queueDrvWriteIdx := 0
  activeBufferNum := 0
  nextBufferIdx := 0
  transferStarted := false
  transferOnGoing := false
  fb1 := addr
  fb2 := addr
  enabled := false
  filling := 0

/-- `CSI_Start` -/
def start (h : Csi α) : Csi α := { h with enabled := true }

/-- `CSI_Stop` -/
def stop (h : Csi α) : Csi α := { h with enabled := false }

/-- `CSI_ReflashFifoDma`: the camera is reset to save the next frame to buffer 0. -/
def reflashFifoDma (h : Csi α) : Csi α := { h with filling := 0 }

/-- `CSI_SetRxBufferAddr` -/
def setRxBufferAddr (index : Nat) (addr : α) (h : Csi α) : Csi α :=
  if index ≠ 0 then { h with fb2 := addr } else { h with fb1 := addr }

/-- `CSI_TransferGetEmptyBufferCount` -/
def transferGetEmptyBufferCount (h : Csi α) : Nat :=
  csiTransferGetQueueDelta h.queueDrvReadIdx h.queueUserWriteIdx

/-- `CSI_TransferLoadBufferToDevice` -/
def transferLoadBufferToDevice (h : Csi α) : Csi α :=
  let h := h.setRxBufferAddr h.nextBufferIdx (h.frameBufferQueue h.queueDrvReadIdx)
  { h with
    queueDrvReadIdx := csiTransferIncreaseQueueIdx h.queueDrvReadIdx
    activeBufferNum := (h.activeBufferNum + 1) % 256
    nextBufferIdx := h.nextBufferIdx ^^^ 1 }

/-- `CSI_TransferStart` -/
def transferStart (h : Csi α) : CsiStatus × Csi α :=
  if h.transferGetEmptyBufferCount < 2 then (.noEmptyBuffer, h)
  else
    let h := { h with nextBufferIdx := 0, activeBufferNum := 0 }
    let h := h.transferLoadBufferToDevice.transferLoadBufferToDevice.reflashFifoDma
    (.success, { h with transferStarted := true, transferOnGoing := true }.start)

/-- `CSI_TransferStop` -/
def transferStop (h : Csi α) : Csi α :=
  { h.stop with
    transferStarted := false
    transferOnGoing := false
    queueDrvReadIdx := h.queueDrvWriteIdx
    activeBufferNum := 0 }

/-- `CSI_TransferSubmitEmptyBuffer` -/
def transferSubmitEmptyBuffer (frameBuffer : α) (h : Csi α) : CsiStatus × Csi α :=
  if csiTransferGetQueueDelta h.queueUserReadIdx h.queueUserWriteIdx = csiDriverQueueSize then
    (.queueFull, h)
  else
    let h := { h with
      frameBufferQueue := Function.update h.frameBufferQueue h.queueUserWriteIdx frameBuffer
      queueUserWriteIdx := csiTransferIncreaseQueueIdx h.queueUserWriteIdx }
    if h.transferStarted ∧ h.transferOnGoing = false ∧ h.transferGetEmptyBufferCount ≥ 2 then
      let h := { h with transferOnGoing := true, nextBufferIdx := 0 }
      (.success, h.transferLoadBufferToDevice.transferLoadBufferToDevice.reflashFifoDma.start)
    else (.success, h)

/-- `CSI_TransferGetFullBuffer` -/
def transferGetFullBuffer (h : Csi α) : Option α × Csi α :=
  if h.queueUserReadIdx = h.queueDrvWriteIdx then (none, h)
  else
    (some (h.frameBufferQueue h.queueUserReadIdx),
      { h with queueUserReadIdx := csiTransferIncreaseQueueIdx h.queueUserReadIdx })

/-- What `CSI_TransferHandleIRQ` does if both frame buffers are done. -/
def resetActive (h : Csi α) : Csi α :=
  let h := h.stop
  let h :=
    if 1 ≤ h.activeBufferNum then
      let h := { h with fb1 := h.frameBufferQueue h.queueDrvWriteIdx }
      if h.activeBufferNum = 2 then
        { h with
          fb2 := h.frameBufferQueue (csiTransferIncreaseQueueIdx h.queueDrvWriteIdx)
          nextBufferIdx := 0 }
      else { h with nextBufferIdx := 1 }
    else h
  h.reflashFifoDma.start

/-- What it does before the callback if one of them is done. -/
def frameDone (h : Csi α) : Csi α :=
  { h with
    queueDrvWriteIdx := csiTransferIncreaseQueueIdx h.queueDrvWriteIdx
    activeBufferNum := (h.activeBufferNum + 255) % 256 }

/-- What it does after the callback. -/
def afterCallback (h : Csi α) : Csi α :=
  if h.activeBufferNum = 0 then { h.stop with transferOnGoing := false }
  else if h.transferGetEmptyBufferCount ≠ 0 then h.transferLoadBufferToDevice
  else h

/-- `CSI_TransferHandleIRQ`, for the flags that it finds in `CSISR`. -/
def transferHandleIRQ {m : Type → Type} [Monad m] (callback : Csi α → m (Csi α))
    (fb1Done fb2Done : Bool) (h : Csi α) : m (Csi α) :=
  if fb1Done ∧ fb2Done then return h.resetActive
  else if fb1Done ∨ fb2Done then do
    let h ← callback h.frameDone
    return h.afterCallback
  else return h

end Csi

/-! ## Users -/

/-- A call that a user makes, also in the callback. -/
inductive CsiUse (α : Type) where
  | submit (frameBuffer : α)
  | get

inductive CsiStep (α : Type) where
  | use (u : CsiUse α)
  | start
  | stop
  | irq (fb1Done fb2Done : Bool) (callback : List (CsiUse α))

/-- A buffer that went into the queue or came out of it. -/
inductive CsiEvent (α : Type) where
  | submitted (frameBuffer : α)
  | got (frameBuffer : α)
deriving DecidableEq

section Steps

variable {α : Type}

def CsiUse.exec (u : CsiUse α) (h : Csi α) : Logged (CsiEvent α) (Csi α) :=
  match u with
  | submit frameBuffer =>
      let (status, h) := h.transferSubmitEmptyBuffer frameBuffer
      ⟨h, if status = .success then [.submitted frameBuffer] else []⟩
  | get =>
      let (frameBuffer, h) := h.transferGetFullBuffer
      ⟨h, frameBuffer.toList.map .got⟩

def CsiStep.exec (x : CsiStep α) (h : Csi α) : Logged (CsiEvent α) (Csi α) :=
  match x with
  | use u => u.exec h
  | start => return h.transferStart.2
  | stop => return h.transferStop
  | irq fb1Done fb2Done callback =>
      h.transferHandleIRQ
        (fun h => ⟨run (unlogged CsiUse.exec) h callback, trace CsiUse.exec h callback⟩)
        fb1Done fb2Done

end Steps

end SmartCar
