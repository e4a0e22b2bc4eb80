import SmartCar.Distinguish.Slew
import SmartCar.Distinguish.Straight

/-!
# The four history arrays

`stop_car`, `road_type`, `steer_error` and `speed_now` are kept by shifting, and
each of them does hold the values recorded by the last calls. But only
`compute_error` starts its shift at the last element. The other three start at
the size of the array: their first assignment writes the element behind it.
-/

namespace SmartCar

open Imperative Logged

/-! ## Calls -/

/-- The globals of `distinguish.c` and a wheel. -/
structure Histories where
  drive : Drive
  wheel : Wheel

/-- A call of one of the functions that keep a history. -/
inductive HistoryCall where
  | stopCarJudge (img : Image)
  | velocitySet (v : Speeds) (s : Lines)
  | computeError (s : Lines)
  | wheelUpdate (rpm : ℚ)

namespace HistoryCall

def exec : HistoryCall → Histories → Logged Cell Histories
  | stopCarJudge img, h => (fun drive => { h with drive }) <$> SmartCar.stopCarJudge img h.drive
  | velocitySet v s, h => (fun drive => { h with drive }) <$> SmartCar.velocitySet v s h.drive
  | computeError s, h => (fun drive => { h with drive }) <$> SmartCar.computeError s h.drive
  | wheelUpdate rpm, h => (fun wheel => { h with wheel }) <$> SmartCar.wheelUpdate rpm h.wheel

def next (c : HistoryCall) (h : Histories) : Histories := (c.exec h).val

def stops : HistoryCall → Bool
  | stopCarJudge _ => true
  | _ => false

def classifies : HistoryCall → Bool
  | velocitySet _ _ => true
  | _ => false

def steers : HistoryCall → Bool
  | computeError _ => true
  | _ => false

def measures : HistoryCall → Bool
  | wheelUpdate _ => true
  | _ => false

end HistoryCall

/-! ## What a call does to the arrays -/

section Calls

variable {d : Drive} {s : Lines} {v : Speeds} {img : Image} {w : Wheel} {rpm : ℚ}

/-- The two drives have the same histories, up to the road type of this frame. -/
structure SameHistories (d d' : Drive) : Prop where
  stopCar : d'.stopCar = d.stopCar
  steerError : d'.steerError = d.steerError
  roadType : ∀ k, k ≠ 0 → d'.roadType k = d.roadType k

theorem SameHistories.record {t : RoadType} {speedSet : Int} : SameHistories d
    { d with roadType := Function.update d.roadType 0 t, speedSet := speedSet } :=
  ⟨rfl, rfl, fun _ hk => Function.update_of_ne hk _ _⟩

/-- Each branch of `velocity_set` records one type of road, in cell 0. -/
theorem setSpeed_histories (f2 : Findline2) : SameHistories d (setSpeed v f2 d).val := by
  refine Returns.ite (Q := SameHistories d) (fun _ => SameHistories.record) fun _ => ?_
  refine Returns.ite (fun _ => SameHistories.record) fun _ => ?_
  refine Returns.ite (fun _ => SameHistories.record) fun _ => ?_
  refine Returns.ite (fun _ => SameHistories.record) fun _ => ?_
  refine Returns.ite (fun _ => SameHistories.record) fun _ => ?_
  refine Returns.bind (Q := SameHistories d) SameHistories.record
    fun d' hd' => ?_
  refine Returns.bind_any fun past => ?_
  exact Returns.ite (fun _ => ⟨hd'.stopCar, hd'.steerError, hd'.roadType⟩)
    fun _ => ⟨hd'.stopCar, hd'.steerError, hd'.roadType⟩

theorem longStraightJudge_histories : SameHistories d (longStraightJudge s d) := by
  unfold longStraightJudge
  split <;> exact ⟨rfl, rfl, fun _ _ => rfl⟩

theorem shortStraightJudge_histories (f : Findline1) : SameHistories d (shortStraightJudge f d) := by
  unfold shortStraightJudge
  dsimp only
  split
  next => exact ⟨rfl, rfl, fun _ _ => rfl⟩
  next => split <;> exact ⟨rfl, rfl, fun _ _ => rfl⟩

theorem SameHistories.trans {d₁ d₂ d₃ : Drive} (h : SameHistories d₁ d₂) (h' : SameHistories d₂ d₃) :
    SameHistories d₁ d₃ :=
  ⟨h'.stopCar.trans h.stopCar, h'.steerError.trans h.steerError,
    fun k hk => (h'.roadType k hk).trans (h.roadType k hk)⟩

theorem judgeStraight_histories : SameHistories d (judgeStraight s d) := by
  have hcleared : SameHistories d { d with longStraightFlag := 0 } := ⟨rfl, rfl, fun _ _ => rfl⟩
  unfold judgeStraight
  dsimp only
  split
  next => exact hcleared.trans (longStraightJudge_histories.trans (shortStraightJudge_histories _))
  next => exact hcleared

/-- The histories before the shift of `velocity_set`. -/
theorem chosen_histories : SameHistories d (setSpeed v s.f2 (judgeStraight s d)).val :=
  judgeStraight_histories.trans (setSpeed_histories s.f2)

theorem stopCarJudge_stopCar (k : Int) : (SmartCar.stopCarJudge img d).val.stopCar k =
    if 1 ≤ k ∧ k ≤ 20 then
      Function.update d.stopCar 0 (if countBlack img > 150 then 1 else 0) (k - 1)
    else Function.update d.stopCar 0 (if countBlack img > 150 then 1 else 0) k := by
  rw [← shift_cell Cell.stopCar 20 _ (fun stopped count => if stopped ≠ 0 then count + 1 else count)
    (0 : Int) (by decide)]
  simp only [SmartCar.stopCarJudge, val_bind, val_pure]

theorem wheelUpdate_speedNow (k : Int) : (SmartCar.wheelUpdate rpm w).val.speedNow k =
    if 1 ≤ k ∧ k ≤ 5 then Function.update w.speedNow 0 (rpm / w.speedToRpm) (k - 1)
    else Function.update w.speedNow 0 (rpm / w.speedToRpm) k := by
  rw [← shift_cell Cell.speedNow 5 _ (fun _ u => u) () (by decide)]
  simp only [SmartCar.wheelUpdate, val_bind, val_pure]

end Calls

/-! ## The histories -/

section Laws

open HistoryCall

theorem stopCar_shifts : Shifts next (fun h => h.drive.stopCar) stops 20 := by
  apply Shifts.of_cells next _ stops 20 (by decide) (by decide)
  · intro c h hc
    cases c with
    | stopCarJudge img => exact ⟨_, fun k hk => Function.update_of_ne hk _ _, stopCarJudge_stopCar⟩
    | velocitySet | computeError | wheelUpdate => cases hc
  · intro c h hc
    cases c with
    | stopCarJudge img => cases hc
    | velocitySet v s => exact chosen_histories.stopCar
    | computeError | wheelUpdate => rfl

theorem roadType_shifts : Shifts next (fun h => h.drive.roadType) classifies 200 := by
  apply Shifts.of_cells next _ classifies 200 (by decide) (by decide)
  · intro c h hc
    cases c with
    | velocitySet v s => exact ⟨_, chosen_histories.roadType, velocitySet_roadType⟩
    | stopCarJudge | computeError | wheelUpdate => cases hc
  · intro c h hc
    cases c with
    | velocitySet v s => cases hc
    | stopCarJudge | computeError | wheelUpdate => rfl

theorem steerError_shifts : Shifts next (fun h => h.drive.steerError) steers 30 := by
  apply Shifts.of_cells next _ steers 29 (by decide) (by decide)
  · intro c h hc
    cases c with
    | computeError s => exact ⟨_, fun k hk => Function.update_of_ne hk _ _, recordError_steerError⟩
    | stopCarJudge | velocitySet | wheelUpdate => cases hc
  · intro c h hc
    cases c with
    | computeError s => cases hc
    | velocitySet v s => exact chosen_histories.steerError
    | stopCarJudge | wheelUpdate => rfl

theorem speedNow_shifts : Shifts next (fun h => h.wheel.speedNow) measures 5 := by
  apply Shifts.of_cells next _ measures 5 (by decide) (by decide)
  · intro c h hc
    cases c with
    | wheelUpdate rpm => exact ⟨_, fun k hk => Function.update_of_ne hk _ _, wheelUpdate_speedNow⟩
    | stopCarJudge | velocitySet | computeError => cases hc
  · intro c h hc
    cases c with
    | wheelUpdate rpm => cases hc
    | stopCarJudge | velocitySet | computeError => rfl

/-- After the run, cell `k` of the array holds the value recorded `k - 1` calls ago,
or what the array held before if there were fewer. -/
def HistoryLaw {α : Type} (get : Histories → Int → α) (records : HistoryCall → Bool) (size : Int)
    (h : Histories) (calls : List HistoryCall) : Prop :=
  ∀ k, 1 ≤ k → k < size → get (run next h calls) k =
    (recorded next get records h calls)[(k - 1).toNat]?.getD
      (get h (k - (recorded next get records h calls).length))

/-- The run accesses elements of the arrays only, and each array holds what the
calls recorded. -/
structure HistoriesKept (h : Histories) (calls : List HistoryCall) : Prop where
  inArray : Meets (fun c h => All Cell.InArray (c.exec h)) next h calls
  stopCar : HistoryLaw (fun h => h.drive.stopCar) stops 20 h calls
  roadType : HistoryLaw (fun h => h.drive.roadType) classifies 200 h calls
  steerError : HistoryLaw (fun h => h.drive.steerError) steers 30 h calls
  speedNow : HistoryLaw (fun h => h.wheel.speedNow) measures 5 h calls

/-- A shift that starts at the size of the array writes behind it. -/
theorem not_inArray_shift {α γ : Type} {cell : Int → Cell} {size : Int} (hsize : 0 < size)
    (hcell : ¬ (cell size).InArray) (a : Int → α) (visit : α → γ → γ) (c : γ) :
    ¬ All Cell.InArray (shift cell size a visit c) := by
  rw [all_shift]
  exact fun h => hcell (h size hsize le_rfl).2

theorem computeError_inArray (s : Lines) (d : Drive) :
    All Cell.InArray (SmartCar.computeError s d) := by
  simp only [SmartCar.computeError, all_bind, all_touch, all_read, all_pure, and_true, all_shift]
  -- this shift starts one cell below the size, the others at it
  refine ⟨by decide, by decide, fun i hlo hhi => ?_⟩
  constructor
  · exact ⟨by omega, by omega⟩
  · exact ⟨by omega, by omega⟩

theorem exec_inArray_iff (c : HistoryCall) (h : Histories) :
    All Cell.InArray (c.exec h) ↔ c.steers = true := by
  cases c with
  | computeError s =>
      rw [exec, all_map]
      exact iff_of_true (computeError_inArray s h.drive) rfl
  | stopCarJudge img =>
      rw [exec, all_map]
      refine iff_of_false (fun hall => ?_) Bool.false_ne_true
      simp only [SmartCar.stopCarJudge, all_bind] at hall
      exact not_inArray_shift (by decide) (by decide) _ _ _ hall.2.1
  | velocitySet v s =>
      rw [exec, all_map]
      refine iff_of_false (fun hall => ?_) Bool.false_ne_true
      simp only [SmartCar.velocitySet, all_bind] at hall
      exact not_inArray_shift (by decide) (by decide) _ _ _ hall.2.1
  | wheelUpdate rpm =>
      rw [exec, all_map]
      refine iff_of_false (fun hall => ?_) Bool.false_ne_true
      simp only [SmartCar.wheelUpdate, all_bind] at hall
      exact not_inArray_shift (by decide) (by decide) _ _ _ hall.2.1

/-- The histories hold what they should in every run, and the arrays are not overrun
exactly if the run consists of calls of `compute_error`. -/
theorem historiesKept_iff (h : Histories) (calls : List HistoryCall) :
    HistoriesKept h calls ↔ ∀ c ∈ calls, ∃ s, c = .computeError s := by
  have hsteers : ∀ c : HistoryCall, c.steers = true ↔ ∃ s, c = .computeError s := by
    intro c
    cases c <;> simp [steers]
  have hmeets : Meets (fun c h => All Cell.InArray (c.exec h)) next h calls ↔
      ∀ c ∈ calls, ∃ s, c = .computeError s :=
    meets_iff_forall fun c h => (exec_inArray_iff c h).trans (hsteers c)
  rw [← hmeets]
  constructor
  · exact HistoriesKept.inArray
  · intro hin
    refine ⟨hin, ?_, ?_, ?_, ?_⟩
    · exact fun k => run_history next _ _ stopCar_shifts h calls
    · exact fun k => run_history next _ _ roadType_shifts h calls
    · exact fun k => run_history next _ _ steerError_shifts h calls
    · exact fun k => run_history next _ _ speedNow_shifts h calls

/-- The first judgement of a run writes `stop_car[20]`. -/
theorem stopCarJudge_overruns : ¬ ∀ h calls, HistoriesKept h calls := by
  intro hclaim
  have hkept := hclaim ⟨Drive.init, ⟨0, 1, fun _ => 0⟩⟩ [.stopCarJudge fun _ _ => 0]
  exact Bool.false_ne_true ((exec_inArray_iff _ _).mp hkept.inArray.1)

end Laws

end SmartCar
