import SmartCar.Actuators.Pwm

/-!
# The bridges of the two motors

A motor is off its guard while both of its channels carry a duty: its bridge is
then driven in both directions. `motor_run` writes the channels one after the
other, the forward one first in either direction, so what matters is the state
between its two writes.
-/

namespace SmartCar

open Imperative Logged

/-! ## Runs of `motor_run` -/

/-- The motors that `chassis_thread` creates. -/
inductive Bridge where
  | left
  | right
deriving DecidableEq

namespace Bridge

def motor : Bridge → Motor
  | left => ⟨1⟩
  | right => ⟨2⟩

def cha : Bridge → PwmChannel
  | left => .pwm1Module3ChaD0
  | right => .pwm2Module3ChaD2

def chb : Bridge → PwmChannel
  | left => .pwm1Module3ChbD1
  | right => .pwm2Module3ChbD3

end Bridge

/-- The duty last written to each channel. -/
abbrev Duties := PwmChannel → Nat

def writeDuty (w : PwmWrite) (d : Duties) : Duties := Function.update d w.channel w.duty

/-- The duties after `motor_create(1)` and `motor_create(2)`. -/
def Duties.created (d : Duties) : Duties :=
  run writeDuty d ((motorCreate 1).log ++ (motorCreate 2).log)

structure MotorCall where
  bridge : Bridge
  thousands : Int

def MotorCall.writes (c : MotorCall) : List PwmWrite := (motorRun c.bridge.motor c.thousands).log

/-- The writes of a run of calls, in order. -/
def motorWrites (calls : List MotorCall) : List PwmWrite := calls.flatMap MotorCall.writes

/-- No bridge is driven in both directions. -/
def NoOverlap (d : Duties) : Prop := ∀ b : Bridge, d b.cha = 0 ∨ d b.chb = 0

theorem noOverlap_iff_both (d : Duties) : NoOverlap d ↔
    (d Bridge.left.cha = 0 ∨ d Bridge.left.chb = 0) ∧
      (d Bridge.right.cha = 0 ∨ d Bridge.right.chb = 0) := by
  constructor
  · exact fun h => ⟨h .left, h .right⟩
  · rintro ⟨hleft, hright⟩ (_ | _)
    · exact hleft
    · exact hright

instance : DecidablePred NoOverlap := fun d => decidable_of_iff' _ (noOverlap_iff_both d)

/-- `last` holds the argument of the last call for each motor, 0 before the first;
the call turns its motor from backward to forward. -/
def TurnsForward (c : MotorCall) (last : Bridge → Int) : Prop :=
  last c.bridge < 0 ∧ 0 < c.thousands

instance (c : MotorCall) (last : Bridge → Int) : Decidable (TurnsForward c last) :=
  inferInstanceAs (Decidable (_ ∧ _))

def noteCall (c : MotorCall) (last : Bridge → Int) : Bridge → Int :=
  Function.update last c.bridge c.thousands

/-- No call of the run turns its motor from backward to forward. -/
def NeverTurnsForward (calls : List MotorCall) : Prop :=
  Meets (fun c last => ¬ TurnsForward c last) noteCall (fun _ => 0) calls

/-! ## One call -/

section Call

variable {c : MotorCall} {d : Duties} {last : Bridge → Int}

theorem writes_forward (h : 0 ≤ c.thousands) : ∃ duty, (duty = 0 ↔ c.thousands = 0) ∧
    c.writes = [⟨c.bridge.cha, duty⟩, ⟨c.bridge.chb, 0⟩] := by
  have hmem := limitInt_mem (y := 1000) (by norm_num) c.thousands
  have hpos := limitInt_pos_iff (y := 1000) (by norm_num) c.thousands
  have hnonneg : 0 ≤ 10 * limitInt c.thousands 1000 := by
    unfold limitInt
    grind
  have hduty := toUint32_of_mem hnonneg (by omega)
  refine ⟨toUint32 (10 * limitInt c.thousands 1000), by omega, ?_⟩
  obtain ⟨b, t⟩ := c
  cases b <;> simp [MotorCall.writes, motorRun, Bridge.motor, runBridge, hnonneg] <;> rfl

theorem writes_backward (h : c.thousands < 0) : ∃ duty, duty ≠ 0 ∧
    c.writes = [⟨c.bridge.cha, 0⟩, ⟨c.bridge.chb, duty⟩] := by
  have hmem := limitInt_mem (y := 1000) (by norm_num) c.thousands
  have hneg : 10 * limitInt c.thousands 1000 < 0 := by
    unfold limitInt
    grind
  have hduty := toUint32_of_mem (x := -(10 * limitInt c.thousands 1000)) (by omega) (by omega)
  refine ⟨toUint32 (-(10 * limitInt c.thousands 1000)), by omega, ?_⟩
  obtain ⟨b, t⟩ := c
  cases b <;> simp [MotorCall.writes, motorRun, Bridge.motor, runBridge, not_le.mpr hneg] <;> rfl

/-- What the last calls have left in the channels. -/
structure LeftBy (last : Bridge → Int) (d : Duties) : Prop where
  backward : ∀ b, last b < 0 → d b.cha = 0 ∧ d b.chb ≠ 0
  forward : ∀ b, 0 ≤ last b → d b.chb = 0

theorem LeftBy.noOverlap (h : LeftBy last d) : NoOverlap d := by
  intro b
  rcases Int.lt_or_le (last b) 0 with hback | hforward
  · exact Or.inl (h.backward b hback).1
  · exact Or.inr (h.forward b hforward)

/-- Between the two writes of a call. -/
theorem write_cha (b b' : Bridge) (x : Nat) : writeDuty ⟨b.cha, x⟩ d b'.cha =
    (if b' = b then x else d b'.cha) ∧ writeDuty ⟨b.cha, x⟩ d b'.chb = d b'.chb := by
  cases b <;> cases b' <;> simp [writeDuty, Bridge.cha, Bridge.chb]

/-- After the two writes of a call. -/
theorem write_chb (b b' : Bridge) (x : Nat) : writeDuty ⟨b.chb, x⟩ d b'.chb =
    (if b' = b then x else d b'.chb) ∧ writeDuty ⟨b.chb, x⟩ d b'.cha = d b'.cha := by
  cases b <;> cases b' <;> simp [writeDuty, Bridge.cha, Bridge.chb]

theorem noteCall_val (b : Bridge) :
    noteCall c last b = if b = c.bridge then c.thousands else last b := by
  simp [noteCall, Function.update_apply]

/-- After both writes of a call. -/
theorem run_writes (b b' : Bridge) (x y : Nat) :
    run writeDuty d [⟨b.cha, x⟩, ⟨b.chb, y⟩] b'.cha = (if b' = b then x else d b'.cha) ∧
      run writeDuty d [⟨b.cha, x⟩, ⟨b.chb, y⟩] b'.chb = if b' = b then y else d b'.chb := by
  simp only [run_cons, run_nil, write_chb, write_cha, and_self]

/-- The channels of the called bridge are those of its last call, the other bridge
is left as it was. -/
theorem LeftBy.write {x y : Nat} (h : LeftBy last d) (hback : c.thousands < 0 → x = 0 ∧ y ≠ 0)
    (hforward : 0 ≤ c.thousands → y = 0) : LeftBy (noteCall c last)
      (run writeDuty d [⟨c.bridge.cha, x⟩, ⟨c.bridge.chb, y⟩]) := by
  constructor
  · intro b hb
    rw [noteCall_val] at hb
    rw [(run_writes c.bridge b x y).1, (run_writes c.bridge b x y).2]
    split at hb
    next heq => simpa [heq] using hback hb
    next hne => simpa [hne] using h.backward b hb
  · intro b hb
    rw [noteCall_val] at hb
    rw [(run_writes c.bridge b x y).2]
    split at hb
    next heq => simpa [heq] using hforward hb
    next hne => simpa [hne] using h.forward b hb

theorem LeftBy.next (h : LeftBy last d) : LeftBy (noteCall c last) (run writeDuty d c.writes) := by
  rcases Int.lt_or_le c.thousands 0 with hback | hforward
  · obtain ⟨duty, hduty, hwrites⟩ := writes_backward hback
    rw [hwrites]
    exact h.write (fun _ => ⟨rfl, hduty⟩) fun hle => absurd hle (not_le.mpr hback)
  · obtain ⟨duty, -, hwrites⟩ := writes_forward hforward
    rw [hwrites]
    exact h.write (fun hlt => absurd hlt (not_lt.mpr hforward)) fun _ => rfl

/-- Only a turn from backward to forward overlaps: the forward channel is switched
on while the other one still carries its duty. -/
theorem always_noOverlap_call_iff (h : LeftBy last d) :
    Always NoOverlap writeDuty d c.writes ↔ ¬ TurnsForward c last := by
  have hafter := (h.next (c := c)).noOverlap
  have hbefore := h.noOverlap
  rcases Int.lt_or_le c.thousands 0 with hback | hforward
  · obtain ⟨duty, -, hwrites⟩ := writes_backward hback
    rw [hwrites] at hafter ⊢
    refine iff_of_true ⟨hbefore, fun b => ?_, hafter⟩ fun hturn => by
      have hpos := hturn.2
      omega
    have hb := hbefore b
    rw [(write_cha c.bridge b 0).1, (write_cha c.bridge b 0).2]
    split
    next => exact Or.inl rfl
    next => exact hb
  · obtain ⟨duty, hduty, hwrites⟩ := writes_forward hforward
    rw [hwrites] at hafter ⊢
    constructor
    · -- in between the two writes the old backward duty meets the new forward one
      rintro ⟨-, hmiddle, -⟩ ⟨hlast, hpos⟩
      have hon := (h.backward c.bridge hlast).2
      have hboth := hmiddle c.bridge
      rw [(write_cha c.bridge c.bridge duty).1, (write_cha c.bridge c.bridge duty).2,
        if_pos rfl] at hboth
      rcases hboth with hzero | hzero
      · exact absurd (hduty.mp hzero) (by omega)
      · exact hon hzero
    · intro hturn
      refine ⟨hbefore, fun b => ?_, hafter⟩
      have hb := hbefore b
      rw [(write_cha c.bridge b duty).1, (write_cha c.bridge b duty).2]
      split
      next heq =>
        subst heq
        -- either the motor stood or ran forward, or it is now stopped
        rcases Int.lt_or_le (last c.bridge) 0 with hlast | hlast
        · have hzero : c.thousands = 0 := by
            unfold TurnsForward at hturn
            omega
          exact Or.inl (hduty.mpr hzero)
        · exact Or.inr (h.forward c.bridge hlast)
      next => exact hb

end Call

/-! ## Runs -/

section Runs

variable {d : Duties} {calls : List MotorCall}

theorem created_leftBy (d : Duties) : LeftBy (fun _ => 0) d.created where
  backward := fun _ h => absurd h (lt_irrefl 0)
  forward := by
    rintro (_ | _) - <;> rfl

theorem always_noOverlap_iff {last : Bridge → Int} (h : LeftBy last d) :
    Always NoOverlap writeDuty d (motorWrites calls) ↔
      Meets (fun c last => ¬ TurnsForward c last) noteCall last calls := by
  induction calls generalizing d last with
  | nil => exact iff_of_true h.noOverlap trivial
  | cons c calls ih =>
      rw [motorWrites, List.flatMap_cons, always_append, always_noOverlap_call_iff h]
      exact and_congr_right fun _ => ih h.next

/-- No write of a run drives a bridge in both directions exactly if no call turns
its motor from backward to forward. -/
theorem motorRun_noOverlap_iff (d : Duties) (calls : List MotorCall) :
    Always NoOverlap writeDuty d.created (motorWrites calls) ↔ NeverTurnsForward calls :=
  always_noOverlap_iff (created_leftBy d)

/-- The left motor backward, then forward. -/
def turnedForward : List MotorCall := [⟨.left, -1⟩, ⟨.left, 1⟩]

theorem turnedForward_overlaps : ¬ ∀ (d : Duties) (calls : List MotorCall),
    Always NoOverlap writeDuty d.created (motorWrites calls) := by
  intro hclaim
  exact absurd (hclaim (fun _ => 0) turnedForward) (by decide)

end Runs

end SmartCar
