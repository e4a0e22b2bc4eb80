import SmartCar.Camera.CsiQueue

/-!
# Frames

The camera of the car has two buffers. `csi_isr` hands a buffer with a whole frame to
`main` and puts it back into the queue at once, so that the camera always has both, and
`main` works on one while the camera fills the other. The camera saves its frames to
frame buffer 0 and frame buffer 1 by turns.
-/

namespace SmartCar

open Imperative Logged

/-- `mt9v03x_csi1_image` and `mt9v03x_csi2_image` -/
inductive CsiImage where
  | csi1
  | csi2
deriving DecidableEq

/-- Where `main` is in its loop. -/
inductive MainLoop where
  /-- before `rt_sem_control` -/
  | reset
  /-- before `rt_sem_take` -/
  | take
  /-- in `rt_sem_take` -/
  | blocked
  /-- `csi_done_sem` has been taken. -/
  | woken
  /-- in `gray_mean_filter`, which began with the frame `begun`, when `frames` were done -/
  | filter (image : CsiImage) (begun : Option Nat) (frames : Nat)
  /-- in the rest of the loop, which uses the filtered image -/
  | work
deriving DecidableEq

/-- One run of `gray_mean_filter`: the frame that it began with, what the same buffer holds
at its end, and how many frames have been done meanwhile. -/
structure FilterRun where
  begun : Option Nat
  ended : Option Nat
  meanwhile : Nat

/-- What `csi_isr` changes. -/
structure CsiUser where
  /-- `mt9v03x_csi_image` -/
  image : CsiImage
  /-- `mt9v03x_csi_finish_flag` -/
  finishFlag : Bool
  /-- of `csi_done_sem` -/
  value : Nat
  main : MainLoop

/-- `rt_sem_release(csi_done_sem)` -/
def CsiUser.semRelease (u : CsiUser) : CsiUser :=
  match u.main with
  | .blocked => { u with main := .woken }
  | _ => if u.value < 65535 then { u with value := u.value + 1 } else u

def csiIsr (h : Csi CsiImage) : StateM CsiUser (Csi CsiImage) :=
  match h.transferGetFullBuffer with
  | (none, h) => return h
  | (some fullCameraBufferAddr, h) => do
      let h := (h.transferSubmitEmptyBuffer fullCameraBufferAddr).2
      if fullCameraBufferAddr = .csi1 then modify fun u => { u with image := .csi1 }
      else if fullCameraBufferAddr = .csi2 then modify fun u => { u with image := .csi2 }
      modify fun u => { u with finishFlag := true }
      modify CsiUser.semRelease
      return h

/-- The camera and its user. -/
structure Camera where
  csi : Csi CsiImage
  user : CsiUser
  /-- `DMA_TSF_DONE_FB1` in `CSISR` -/
  fb1Done : Bool
  /-- `DMA_TSF_DONE_FB2` in `CSISR` -/
  fb2Done : Bool
  /-- the number of the frame in each buffer, if it is whole -/
  content : CsiImage → Option Nat
  /-- the number of frames that are done -/
  frames : Nat

/-- The address in one of the two frame buffer registers. -/
def Csi.frameBuffer {α : Type} (h : Csi α) (index : Nat) : α := if index ≠ 0 then h.fb2 else h.fb1

/-- What `mt9v03x_csi_init` leaves, with `addr` in the memory of the handle. -/
def Camera.init (addr : CsiImage) : Camera where
  csi :=
    let h := Csi.transferCreateHandle addr
    let h := (h.transferSubmitEmptyBuffer .csi1).2
    let h := (h.transferSubmitEmptyBuffer .csi2).2
    h.transferStart.2
  user := ⟨.csi1, false, 0, .reset⟩
  fb1Done := false
  fb2Done := false
  content := fun _ => none
  frames := 0

namespace Camera

/-- A frame is done, and the next one goes to the other frame buffer. -/
def frameEnd (c : Camera) : Camera :=
  if c.csi.enabled then
    let other := c.csi.filling ^^^ 1
    { c with
      csi := { c.csi with filling := other }
      fb1Done := c.fb1Done || c.csi.filling == 0
      fb2Done := c.fb2Done || c.csi.filling != 0
      content := Function.update
        (Function.update c.content (c.csi.frameBuffer c.csi.filling) (some (c.frames + 1)))
        (c.csi.frameBuffer other) none
      frames := c.frames + 1 }
  else c

/-- `CSI_IRQHandler`. A camera that has been reset begins a frame anew. -/
def irq (c : Camera) : Camera :=
  let (csi, user) := (c.csi.transferHandleIRQ csiIsr c.fb1Done c.fb2Done).run c.user
  let content :=
    if c.fb1Done ∧ c.fb2Done then
      Function.update c.content (csi.frameBuffer csi.filling) none
    else c.content
  { c with csi, user, content, fb1Done := false, fb2Done := false }

/-- The next step of the loop in `main`. -/
def mainStep (c : Camera) : Logged FilterRun Camera :=
  match c.user.main with
  | .reset => return { c with user := { c.user with value := 0, main := .take } }
  | .take =>
      if c.user.value > 0 then
        return { c with user := { c.user with value := c.user.value - 1, main := .woken } }
      else return { c with user := { c.user with main := .blocked } }
  | .blocked => return c
  | .woken =>
      let main := .filter c.user.image (c.content c.user.image) c.frames
      return { c with user := { c.user with main } }
  | .filter image begun frames => do
      touch ⟨begun, c.content image, c.frames - frames⟩
      return { c with user := { c.user with main := .work } }
  | .work => return { c with user := { c.user with main := .reset } }

end Camera

inductive CameraStep where
  | frameEnd
  | irq
  | main

def CameraStep.exec (x : CameraStep) (c : Camera) : Logged FilterRun Camera :=
  match x with
  | frameEnd => return c.frameEnd
  | irq => return c.irq
  | main => c.mainStep

/-- The car's camera after the steps `xs`. -/
def cameraRun (addr : CsiImage) (xs : List CameraStep) : Camera :=
  run (unlogged CameraStep.exec) (.init addr) xs

end SmartCar
