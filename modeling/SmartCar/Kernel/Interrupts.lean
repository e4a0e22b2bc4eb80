import SmartCar.Imperative.Brackets

/-!
# Interrupt nesting

The interrupt handlers of `interrupt.c` and the tick handler of `board.c`, each
with the two calls around its body, and the counter `rt_interrupt_nest` that
these calls keep for the scheduler. An interrupt of higher priority may enter at
any point of a body.
-/

namespace SmartCar

open Imperative

/-! ## The counter of `irq.c` -/

def rtInterruptEnter (nest : UInt8) : UInt8 := nest + 1

def rtInterruptLeave (nest : UInt8) : UInt8 := nest - 1

/-! ## The handlers -/

/-- What a handler does to `rt_interrupt_nest` before and after its body. -/
structure Isr where
  first : UInt8 → UInt8
  last : UInt8 → UInt8

def csiIRQHandler : Isr := ⟨rtInterruptLeave, rtInterruptEnter⟩

def pitIRQHandler : Isr := ⟨rtInterruptLeave, rtInterruptEnter⟩

def gpio2Combined1631IRQHandler : Isr := ⟨rtInterruptLeave, rtInterruptEnter⟩

def gpio2Combined015IRQHandler : Isr := ⟨rtInterruptLeave, rtInterruptEnter⟩

def sysTickHandler : Isr := ⟨rtInterruptEnter, rtInterruptLeave⟩

inductive Handler where
  | csi
  | pit
  | gpio2Combined1631
  | gpio2Combined015
  | sysTick
deriving DecidableEq

def Handler.isr : Handler → Isr
  | .csi => csiIRQHandler
  | .pit => pitIRQHandler
  | .gpio2Combined1631 => gpio2Combined1631IRQHandler
  | .gpio2Combined015 => gpio2Combined015IRQHandler
  | .sysTick => sysTickHandler

def Handler.first (h : Handler) : UInt8 → UInt8 := h.isr.first

def Handler.last (h : Handler) : UInt8 → UInt8 := h.isr.last

/-- The active handlers and `rt_interrupt_nest`. -/
abbrev Interrupts := Nest Handler UInt8

/-- Thread mode, with `rt_interrupt_nest` as initialised. -/
def Interrupts.init : Interrupts := ⟨[], 0⟩

abbrev interruptStep : Bracket Handler → Interrupts → Interrupts :=
  Nest.step Handler.first Handler.last

/-- Well-nested entries and exits from thread mode, of a depth below 255. -/
abbrev InterruptRun (events : List (Bracket Handler)) : Prop :=
  Nest.WellNested Handler.first Handler.last 255 0 events

/-- While a body runs the counter is the number of active handlers; with no
handler active it is 0. -/
def Accounted (s : Interrupts) : Prop := s.value.toNat = s.active.length

instance : DecidablePred Accounted := fun s =>
  inferInstanceAs (Decidable (s.value.toNat = s.active.length))

/-! ## Accounting -/

section Accounting

variable {events : List (Bracket Handler)}

theorem handler_last_first (h : Handler) (nest : UInt8) : h.last (h.first nest) = nest := by
  cases h with
  | sysTick => exact UInt8.add_sub_cancel nest 1
  | csi | pit | gpio2Combined1631 | gpio2Combined015 => exact UInt8.sub_add_cancel nest 1

/-- Handlers that count themselves in add up to their number. -/
theorem foldr_sysTick {active : List Handler} (hall : ∀ h ∈ active, h = .sysTick)
    (hdepth : active.length < 255) : (active.foldr Handler.first 0).toNat = active.length := by
  induction active with
  | nil => rfl
  | cons h active ih =>
      simp only [List.length_cons] at hdepth
      have hcount := ih (fun k hk => hall k (List.mem_cons_of_mem h hk)) (by omega)
      obtain rfl := hall h List.mem_cons_self
      change (active.foldr Handler.first 0 + 1).toNat = active.length + 1
      rw [UInt8.toNat_add, hcount]
      exact Nat.mod_eq_of_lt (by simp; omega)

/-- A handler of `interrupt.c` counts itself out on entry. -/
theorem first_toNat_ne {h : Handler} (hne : h ≠ .sysTick) (nest : UInt8) :
    (h.first nest).toNat ≠ nest.toNat + 1 := by
  have hleave : (rtInterruptLeave nest).toNat ≠ nest.toNat + 1 := by
    rw [rtInterruptLeave, UInt8.toNat_sub]
    have hone : (1 : UInt8).toNat = 1 := rfl
    omega
  cases h with
  | sysTick => exact absurd rfl hne
  | csi | pit | gpio2Combined1631 | gpio2Combined015 => exact hleave

theorem interruptNest_eq_foldr (hrun : InterruptRun events) :
    (run interruptStep Interrupts.init events).value =
      (run interruptStep Interrupts.init events).active.foldr Handler.first 0 :=
  Nest.value_eq_foldr handler_last_first hrun

/-- With no handler active the counter is 0, whatever handlers have run. -/
theorem interruptNest_idle (hrun : InterruptRun events)
    (hidle : (run interruptStep Interrupts.init events).active = []) :
    (run interruptStep Interrupts.init events).value = 0 := by
  rw [interruptNest_eq_foldr hrun, hidle]
  rfl

/-- The counter is the number of active handlers at every point of a run exactly
if only the tick handler has been entered. -/
theorem interruptNest_accounted_iff (hrun : InterruptRun events) :
    Always Accounted interruptStep Interrupts.init events ↔
      ∀ h, .enter h ∈ events → h = .sysTick := by
  rw [always_iff_initial]
  constructor
  · intro haccounted h hmem
    obtain ⟨earlier, later, rfl⟩ := List.append_of_mem hmem
    -- before the entry, and inside the body right after it
    have hbefore : (run interruptStep Interrupts.init earlier).value.toNat =
        (run interruptStep Interrupts.init earlier).active.length :=
      haccounted earlier (List.prefix_append _ _)
    have hinside := haccounted (earlier ++ [.enter h]) ⟨later, by simp⟩
    rw [run_concat] at hinside
    by_contra hne
    apply first_toNat_ne hne (run interruptStep Interrupts.init earlier).value
    rw [hbefore]
    exact hinside
  · intro hticks earlier hinitial
    have hearlier := Nest.WellNested.of_initial hrun hinitial
    unfold Accounted
    rw [interruptNest_eq_foldr hearlier]
    apply foldr_sysTick
    · intro h hmem
      exact hticks h (hinitial.subset (Nest.mem_active hmem))
    · exact Nest.length_lt (by decide) hearlier

/-- A camera interrupt in the tick handler. -/
def cameraInTick : List (Bracket Handler) :=
  [.enter .sysTick, .enter .csi, .exit .csi, .exit .sysTick]

theorem interruptNest_accounted_iff_cameraInTick :
    Always Accounted interruptStep Interrupts.init cameraInTick ↔
      ∀ h, .enter h ∈ cameraInTick → h = .sysTick :=
  interruptNest_accounted_iff (by decide)

/-- In the camera interrupt the counter is back at 0, as in thread mode. -/
theorem cameraInTick_not_accounted :
    ¬ ∀ events, InterruptRun events → Always Accounted interruptStep Interrupts.init events := by
  intro hclaim
  exact absurd (hclaim cameraInTick (by decide)) (by decide)

end Accounting

end SmartCar
