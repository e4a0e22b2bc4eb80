import SmartCar.Distinguish.Histories

/-!
# The stop line

`stop_car_judge` marks each image that is dark enough in front of the car, and
counts the marks of the last twenty images while it shifts them. The count is
taken of the cells just copied, so the image of the call itself is one of them.
-/

namespace SmartCar

open Imperative Logged

/-! ## What is counted -/

/-- The rows and columns that `stop_car_judge` looks at. -/
noncomputable def stopWindow : Finset (Int × Int) := Finset.Icc 116 118 ×ˢ Finset.Icc 30 130

/-- More than 150 pixels of the window are black. -/
def StopLine (img : Image) : Prop :=
  150 < (stopWindow.filter fun p => img p.1 p.2 = 0).card

noncomputable instance : DecidablePred StopLine := fun _ => inferInstanceAs (Decidable (_ < _))

/-- The nested loops of the function count the window. -/
theorem countBlack_eq (img : Image) :
    countBlack img = (stopWindow.filter fun p => img p.1 p.2 = 0).card := by
  have hrow : ∀ i count, (foldDown (ε := Cell) 130 29 count fun j count =>
      return if img i j = 0 then count + 1 else count).val =
        count + ∑ j ∈ Finset.Ioc 29 130, if img i j = 0 then 1 else (0 : Int) := by
    intro i count
    apply foldDown_sum
    intro j m _ _
    simp only [val_pure]
    split <;> simp
  have hsum : countBlack img =
      ∑ i ∈ Finset.Ioc 115 118, ∑ j ∈ Finset.Ioc 29 130, if img i j = 0 then 1 else 0 := by
    rw [countBlack, foldDown_sum _ _ fun i count _ _ => hrow i count, zero_add]
  have hwindow : stopWindow = Finset.Ioc 115 118 ×ˢ Finset.Ioc 29 130 := by
    ext p
    simp only [stopWindow, Finset.mem_product, Finset.mem_Icc, Finset.mem_Ioc]
    omega
  rw [hsum, Finset.card_filter, hwindow, Finset.sum_product]
  push_cast
  rfl

theorem countBlack_gt_iff (img : Image) : countBlack img > 150 ↔ StopLine img := by
  rw [countBlack_eq, StopLine]
  omega

/-- What a call writes to `stop_car[0]`. -/
noncomputable def stopMark (img : Image) : Int := if StopLine img then 1 else 0

theorem stopMark_eq (img : Image) : (if countBlack img > 150 then 1 else 0) = stopMark img := by
  unfold stopMark
  simp only [countBlack_gt_iff]

theorem stopMark_ne_zero (img : Image) : stopMark img ≠ 0 ↔ StopLine img := by
  simp [stopMark]

/-! ## One call -/

/-- A mark counts one. -/
def counted (stopped : Int) : Int := if stopped ≠ 0 then 1 else 0

/-- The loop that shifts the marks counts the first twenty, before the shift. -/
theorem stopCarJudge_flag (img : Image) (d : Drive) : (stopCarJudge img d).val.stopCarFlag =
    if 15 ≤ ∑ k ∈ Finset.range 20, counted (Function.update d.stopCar 0 (stopMark img) k)
    then 1 else 0 := by
  have hvisit : (fun stopped count : Int => if stopped ≠ 0 then count + 1 else count) =
      fun stopped count => count + counted stopped := by
    funext stopped count
    unfold counted
    split <;> simp
  simp only [stopCarJudge, val_bind, val_pure, stopMark_eq, hvisit]
  rw [shift_sum Cell.stopCar 20 _ counted 0 (by decide), zero_add]
  exact congrArg (fun stopCount => if 15 ≤ stopCount then (1 : Int) else 0)
    (sum_cells (fun k => counted (Function.update d.stopCar 0 (stopMark img) k)) 20)

/-! ## Runs -/

/-- The globals after a run of calls. -/
def afterJudgements (images : List Image) : Drive :=
  run (fun img d => (stopCarJudge img d).val) Drive.init images

theorem stopCar_judgements :
    Shifts (fun img d => (stopCarJudge img d).val) Drive.stopCar (fun _ => true) 20 := by
  apply Shifts.of_cells _ _ _ 20 (by decide) (by decide)
  · intro img d _
    exact ⟨_, fun k hk => Function.update_of_ne hk _ _, stopCarJudge_stopCar⟩
  · intro img d h
    cases h

/-- Before a call, cells 1 to 19 hold the marks of the images before. -/
theorem afterJudgements_stopCar (images : List Image) {k : Int} (hlo : 1 ≤ k) (hhi : k < 20) :
    (afterJudgements images).stopCar k =
      (images.map stopMark).reverse[(k - 1).toNat]?.getD 0 := by
  have hmark : ∀ img d, (stopCarJudge img d).val.stopCar 0 = stopMark img := by
    intro img d
    rw [stopCarJudge_stopCar, if_neg (by decide), Function.update_self, stopMark_eq]
  have hhistory := run_history _ _ _ stopCar_judgements Drive.init images hlo hhi
  rw [recorded_eq_map _ _ _ stopMark (fun _ => rfl) hmark] at hhistory
  exact hhistory

/-- The flag tells whether at least 15 of the last 20 images had a stop line. -/
theorem stopCarFlag_eq (images : List Image) : (afterJudgements images).stopCarFlag =
    if 15 ≤ (images.reverse.take 20).countP (fun img => StopLine img) then 1 else 0 := by
  cases images using List.reverseRecOn with
  | nil => rfl
  | append_singleton images img =>
      have hcells : ∀ k ∈ Finset.range 20,
          counted (Function.update (afterJudgements images).stopCar 0 (stopMark img) k) =
            counted ((((images ++ [img]).map stopMark).reverse)[k]?.getD 0) := by
        intro k hk
        simp only [Finset.mem_range] at hk
        cases k with
        | zero => simp
        | succ k =>
            rw [Function.update_of_ne (by omega), afterJudgements_stopCar images (by omega) (by omega)]
            simp
      have hcount : ∀ xs : List Image, ((xs.map stopMark).map counted).sum =
          (xs.countP (fun img => StopLine img) : Int) := by
        intro xs
        induction xs with
        | nil => rfl
        | cons x xs ih =>
            rw [List.map_cons, List.map_cons, List.sum_cons, ih, List.countP_cons, counted]
            simp only [stopMark_ne_zero, decide_eq_true_eq]
            push_cast
            ring
      have hrun : afterJudgements (images ++ [img]) =
          (stopCarJudge img (afterJudgements images)).val := run_concat images img
      rw [hrun, stopCarJudge_flag, Finset.sum_congr rfl hcells, sum_window counted rfl,
        ← List.map_reverse, ← List.map_take, hcount]
      norm_cast

end SmartCar
