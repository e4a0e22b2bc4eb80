import Mathlib.Algebra.BigOperators.Intervals
import SmartCar.Actuators.Pid

/-!
# The two PID forms

The position form keeps the sum of the errors, the incremental form only the last
two errors and its own output. Fed the same targets and measurements, and as long
as no limit of either has been hit, both put out the same value: the differences
that the incremental form adds up telescope to the position form.
-/

namespace SmartCar

open Imperative

/-! ## Feeding a controller -/

/-- One control period: the target that is set and the measurement. -/
structure Sample where
  target : ℚ
  measured : ℚ

def feed (x : Sample) (c : AnyPid) : AnyPid :=
  (c.controllerSetTarget x.target).controllerUpdate x.measured

/-- An update of `c` at `measured` hits none of its limits. -/
def AnyPid.Free (c : AnyPid) (measured : ℚ) : Prop :=
  match c with
  | .inc pid => pid.minimum ≤ pid.nextOut measured ∧ pid.nextOut measured ≤ pid.maximum
  | .pos pid =>
      (-pid.antiWindupValue ≤ pid.nextIntegral measured ∧
        pid.nextIntegral measured ≤ pid.antiWindupValue) ∧
      pid.minimum ≤ pid.nextOut measured ∧ pid.nextOut measured ≤ pid.maximum

instance (c : AnyPid) (measured : ℚ) : Decidable (c.Free measured) :=
  match c with
  | .inc _ | .pos _ => inferInstanceAs (Decidable (_ ∧ _))

/-- The first `n` control periods. -/
def firstSamples (samples : ℕ → Sample) (n : ℕ) : List Sample := (List.range n).map samples

/-- No limit of `c` is hit in the first `n` control periods. -/
def Unsaturated (samples : ℕ → Sample) (n : ℕ) (c : AnyPid) : Prop :=
  Meets (fun x c => (c.controllerSetTarget x.target).Free x.measured) feed c
    (firstSamples samples n)

instance (samples : ℕ → Sample) (n : ℕ) (c : AnyPid) : Decidable (Unsaturated samples n c) :=
  decidableMeets _ feed c (firstSamples samples n)

/-- The error of the `n`-th update, 0 before the first. -/
def errorAt (samples : ℕ → Sample) : ℕ → ℚ
  | 0 => 0
  | n + 1 => (samples n).target - (samples n).measured

/-- What a PID controller without limits puts out at its `n`-th update. -/
def pidLaw (kp ki kd : ℚ) (e : ℕ → ℚ) (n : ℕ) : ℚ :=
  kp * e n + ki * ∑ i ∈ Finset.range n, e (i + 1) + kd * (e n - e (n - 1))

/-! ## One update -/

section Update

variable {kp ki kd : ℚ} {e : ℕ → ℚ} {n : ℕ} {x : Sample}

theorem limitOut_of_mem {maximum minimum out : ℚ} (h : minimum ≤ out ∧ out ≤ maximum) :
    limitOut maximum minimum out = out := by
  simp only [limitOut, if_neg (not_lt.mpr h.2), if_neg (not_lt.mpr h.1)]

theorem limitIntegral_of_mem {antiWindupValue integral : ℚ}
    (h : -antiWindupValue ≤ integral ∧ integral ≤ antiWindupValue) :
    limitIntegral antiWindupValue integral = integral := by
  rw [limitIntegral, if_neg (not_lt.mpr h.2), if_neg (not_lt.mpr h.1)]

/-- The incremental form after `n` updates with the errors `e`. -/
structure IncFollows (kp ki kd : ℚ) (e : ℕ → ℚ) (n : ℕ) (pid : IncPid) : Prop where
  gains : pid.kp = kp ∧ pid.ki = ki ∧ pid.kd = kd
  errorL : pid.errorL = e n
  errorLl : pid.errorLl = e (n - 1)
  lastOut : pid.lastOut = pidLaw kp ki kd e n

/-- The position form after `n` updates with the errors `e`. -/
structure PosFollows (kp ki kd : ℚ) (e : ℕ → ℚ) (n : ℕ) (pid : PosPid) : Prop where
  gains : pid.kp = kp ∧ pid.ki = ki ∧ pid.kd = kd
  errorL : pid.errorL = e n
  integral : pid.integral = ki * ∑ i ∈ Finset.range n, e (i + 1)

/-- Either form after `n` updates; from the first update on it has put out the law. -/
def Follows (kp ki kd : ℚ) (e : ℕ → ℚ) (n : ℕ) (c : AnyPid) : Prop :=
  (0 < n → c.controller.output = pidLaw kp ki kd e n) ∧
    match c with
    | .inc pid => IncFollows kp ki kd e n pid
    | .pos pid => PosFollows kp ki kd e n pid

/-- The step of the telescope. -/
theorem pidLaw_succ : pidLaw kp ki kd e (n + 1) = pidLaw kp ki kd e n +
    (kp * (e (n + 1) - e n) + ki * e (n + 1) + kd * (e (n + 1) - 2 * e n + e (n - 1))) := by
  simp only [pidLaw, Finset.sum_range_succ, Nat.add_sub_cancel]
  ring

theorem IncFollows.next {pid : IncPid} (h : IncFollows kp ki kd e n pid)
    (herror : pid.controller.target - x.measured = e (n + 1))
    (hfree : (AnyPid.inc pid).Free x.measured) :
    Follows kp ki kd e (n + 1) ((AnyPid.inc pid).controllerUpdate x.measured) := by
  have hout : pid.nextOut x.measured = pidLaw kp ki kd e (n + 1) := by
    obtain ⟨hkp, hki, hkd⟩ := h.gains
    rw [pidLaw_succ, ← h.lastOut, IncPid.nextOut, herror, h.errorL, h.errorLl, hkp, hki, hkd]
  -- the limit is idle, so what is stored is again the law
  have hlast : limitOut pid.maximum pid.minimum (pid.nextOut x.measured) =
      pidLaw kp ki kd e (n + 1) := by
    rw [limitOut_of_mem hfree, hout]
  exact ⟨fun _ => hlast, h.gains, herror, h.errorL, hlast⟩

theorem PosFollows.next {pid : PosPid} (h : PosFollows kp ki kd e n pid)
    (herror : pid.controller.target - x.measured = e (n + 1))
    (hfree : (AnyPid.pos pid).Free x.measured) :
    Follows kp ki kd e (n + 1) ((AnyPid.pos pid).controllerUpdate x.measured) := by
  obtain ⟨hkp, hki, hkd⟩ := h.gains
  have hintegral : limitIntegral pid.antiWindupValue (pid.nextIntegral x.measured) =
      ki * ∑ i ∈ Finset.range (n + 1), e (i + 1) := by
    rw [limitIntegral_of_mem hfree.1, PosPid.nextIntegral, h.integral, herror, hki,
      Finset.sum_range_succ, mul_add]
  have hout : limitOut pid.maximum pid.minimum (pid.nextOut x.measured) =
      pidLaw kp ki kd e (n + 1) := by
    rw [limitOut_of_mem hfree.2, PosPid.nextOut, hintegral, herror, h.errorL, hkp, hkd]
    rfl
  exact ⟨fun _ => hout, h.gains, herror, hintegral⟩

/-- An update that hits no limit goes on with the law. -/
theorem Follows.feed {c : AnyPid} (h : Follows kp ki kd e n c)
    (herror : x.target - x.measured = e (n + 1))
    (hfree : (c.controllerSetTarget x.target).Free x.measured) :
    Follows kp ki kd e (n + 1) (feed x c) := by
  cases c with
  | inc pid =>
      obtain ⟨hgains, herrorL, herrorLl, hlastOut⟩ := h.2
      exact IncFollows.next ⟨hgains, herrorL, herrorLl, hlastOut⟩ herror hfree
  | pos pid =>
      obtain ⟨hgains, herrorL, hintegral⟩ := h.2
      exact PosFollows.next ⟨hgains, herrorL, hintegral⟩ herror hfree

end Update

/-! ## Runs -/

section Runs

variable {kp ki kd : ℚ} {samples : ℕ → Sample} {c : AnyPid}

theorem firstSamples_succ (samples : ℕ → Sample) (n : ℕ) :
    firstSamples samples (n + 1) = firstSamples samples n ++ [samples n] := by
  simp [firstSamples, List.range_succ]

theorem run_follows (hinit : Follows kp ki kd (errorAt samples) 0 c) (n : ℕ)
    (hfree : Unsaturated samples n c) :
    Follows kp ki kd (errorAt samples) n (run feed c (firstSamples samples n)) := by
  induction n with
  | zero => exact hinit
  | succ n ih =>
      rw [Unsaturated, firstSamples_succ, meets_append] at hfree
      rw [firstSamples_succ, run_concat]
      exact (ih hfree.1).feed rfl hfree.2.1

theorem incPid_follows (fresh : Controller) (kp ki kd maximum minimum : ℚ) :
    Follows kp ki kd (errorAt samples) 0 (.inc (IncPid.create fresh kp ki kd maximum minimum)) := by
  refine ⟨fun h => absurd h (lt_irrefl 0), ⟨rfl, rfl, rfl⟩, rfl, rfl, ?_⟩
  simp [IncPid.create, pidLaw, errorAt]

theorem posPid_follows {fresh : Controller} {kp ki kd maximum minimum : ℚ} {pid : PosPid}
    (hcreate : PosPid.create fresh kp ki kd maximum minimum = some pid) :
    Follows kp ki kd (errorAt samples) 0 (.pos pid) := by
  unfold PosPid.create at hcreate
  split at hcreate
  next => cases hcreate
  next =>
    cases hcreate
    refine ⟨fun h => absurd h (lt_irrefl 0), ⟨rfl, rfl, rfl⟩, rfl, ?_⟩
    simp

/-- As long as neither form has hit a limit, both put out the law at every update. -/
theorem pidForms_agree (freshInc freshPos : Controller)
    (kp ki kd maxInc minInc maxPos minPos : ℚ) (pos : PosPid)
    (hcreate : PosPid.create freshPos kp ki kd maxPos minPos = some pos)
    (samples : ℕ → Sample) (n : ℕ)
    (hinc : Unsaturated samples (n + 1) (.inc (IncPid.create freshInc kp ki kd maxInc minInc)))
    (hpos : Unsaturated samples (n + 1) (.pos pos)) :
    (run feed (.inc (IncPid.create freshInc kp ki kd maxInc minInc))
        (firstSamples samples (n + 1))).controller.output =
      pidLaw kp ki kd (errorAt samples) (n + 1) ∧
    (run feed (.pos pos) (firstSamples samples (n + 1))).controller.output =
      pidLaw kp ki kd (errorAt samples) (n + 1) := by
  have hincLaw := run_follows (incPid_follows freshInc kp ki kd maxInc minInc) (n + 1) hinc
  have hposLaw := run_follows (posPid_follows hcreate) (n + 1) hpos
  exact ⟨hincLaw.1 n.succ_pos, hposLaw.1 n.succ_pos⟩

/-- The gains of a wheel and a target that is approached in steps of 10. -/
def approach (n : ℕ) : Sample := ⟨100, 10 * n⟩

theorem pidForms_agree_approach :
    (run feed (.inc (IncPid.create ⟨0, 0⟩ (2 / 5) (1 / 10) 1 1000 (-1000)))
        (firstSamples approach (2 + 1))).controller.output =
      pidLaw (2 / 5) (1 / 10) 1 (errorAt approach) (2 + 1) ∧
    (run feed (.pos ⟨⟨0, 0⟩, 2 / 5, 1 / 10, 1, -1000, 1000, 1000 * PosPid.antiWindRadio,
        0, 0, 0, 0, 0, 0, 0⟩) (firstSamples approach (2 + 1))).controller.output =
      pidLaw (2 / 5) (1 / 10) 1 (errorAt approach) (2 + 1) :=
  pidForms_agree ⟨0, 0⟩ ⟨0, 0⟩ (2 / 5) (1 / 10) 1 1000 (-1000) 1000 (-1000) _
    (if_neg (by norm_num)) approach 2 (by decide +kernel) (by decide +kernel)

end Runs

end SmartCar
