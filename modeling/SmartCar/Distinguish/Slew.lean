import SmartCar.Distinguish.Functions

/-!
# The steering error moves slowly

`compute_error` limits the new error twice: to 80 columns to either side, and to
15 columns from the error of the frame before. Nothing is used of the mean that
the error is formed from.
-/

namespace SmartCar

open Imperative Logged Numeric

/-! ## Runs of `compute_error` -/

/-- What `compute_error` does once the error is formed. -/
def recordError (raw : Int) (d : Drive) : Logged Cell Drive := do
  Logged.touch (.steerError 0)
  let last ← Logged.read (.steerError 1) (d.steerError 1)
  let e := limitError raw last
  let (steerError, _) ← shift .steerError 29 (Function.update d.steerError 0 e) (fun _ u => u) ()
  return { d with
    steerError, steerErrorAve := steerError 0, steerErrorLl := d.steerErrorL
    steerErrorL := steerError 0 }

/-- `compute_error` with any way to form `CenterMeanValue`. -/
def computeErrorWith (center : Lines → ℚ) (s : Lines) (d : Drive) : Logged Cell Drive :=
  recordError (truncate (center s - 80)) d

theorem computeError_eq (s : Lines) (d : Drive) : computeError s d =
    computeErrorWith (fun s => centerMeanValue s.f1 s.f2.toppoint) s d := rfl

/-- The globals after a run of calls. -/
def afterErrors (center : Lines → ℚ) (frames : List Lines) : Drive :=
  run (fun s d => (computeErrorWith center s d).val) Drive.init frames

/-! ## The limits -/

def SteerRange (e : Int) : Prop := -80 ≤ e ∧ e ≤ 80

variable {raw last : Int} {d : Drive} {center : Lines → ℚ} {frames : List Lines} {s : Lines}

/-- The second limit moves the error towards `last`, so it does not undo the first. -/
theorem limitError_range (h : SteerRange last) : SteerRange (limitError raw last) := by
  obtain ⟨hlo, hhi⟩ := h
  constructor
  · unfold limitError
    grind
  · unfold limitError
    grind

/-- The last test only sees an error that is too low, and raises it to within 15. -/
theorem limitError_slew (raw last : Int) : |limitError raw last - last| ≤ 15 := by
  rw [abs_le]
  constructor
  · unfold limitError
    grind
  · unfold limitError
    grind

theorem recordError_steerError (k : Int) : (recordError raw d).val.steerError k =
    if 1 ≤ k ∧ k ≤ 29 then Function.update d.steerError 0 (limitError raw (d.steerError 1)) (k - 1)
    else Function.update d.steerError 0 (limitError raw (d.steerError 1)) k := by
  rw [← shift_cell Cell.steerError 29 _ (fun _ u => u) () (by decide)]
  rfl

theorem recordError_ave :
    (recordError raw d).val.steerErrorAve = (recordError raw d).val.steerError 0 := rfl

theorem recordError_newest :
    (recordError raw d).val.steerError 0 = limitError raw (d.steerError 1) := by
  rw [recordError_steerError]
  simp

/-- The shift copies the new error to cell 1, where the next call looks for it. -/
theorem recordError_next :
    (recordError raw d).val.steerError 1 = limitError raw (d.steerError 1) := by
  rw [recordError_steerError]
  simp

/-! ## The invariant -/

/-- What holds between two calls. -/
structure Steered (d : Drive) : Prop where
  range : ∀ k, 0 ≤ k → k < 30 → SteerRange (d.steerError k)
  newest : d.steerError 0 = d.steerErrorAve
  next : d.steerError 1 = d.steerErrorAve
  last : d.steerErrorL = d.steerErrorAve

theorem Steered.ave (h : Steered d) : SteerRange d.steerErrorAve := by
  rw [← h.newest]
  exact h.range 0 (by decide) (by decide)

theorem steered_init : Steered Drive.init :=
  ⟨fun _ _ _ => by simp [SteerRange, Drive.init], rfl, rfl, rfl⟩

theorem Steered.record (h : Steered d) : Steered (recordError raw d).val where
  range := by
    have hnew : SteerRange (limitError raw (d.steerError 1)) :=
      limitError_range (h.range 1 (by decide) (by decide))
    -- every cell holds the new error or one of the old ones
    have hcell : ∀ j, 0 ≤ j → j < 30 →
        SteerRange (Function.update d.steerError 0 (limitError raw (d.steerError 1)) j) := by
      intro j hlo hhi
      rw [Function.update_apply]
      split
      next => exact hnew
      next => exact h.range j hlo hhi
    intro k hlo hhi
    rw [recordError_steerError]
    split
    next hk => exact hcell (k - 1) (by omega) (by omega)
    next => exact hcell k hlo hhi
  newest := recordError_ave.symm
  next := by rw [recordError_ave, recordError_newest, recordError_next]
  last := rfl

theorem afterErrors_concat : afterErrors center (frames ++ [s]) =
    (computeErrorWith center s (afterErrors center frames)).val :=
  run_concat frames s

theorem afterErrors_steered (center : Lines → ℚ) (frames : List Lines) :
    Steered (afterErrors center frames) :=
  run_invariant Steered (fun _ _ h => h.record) steered_init frames

/-- The value that one more call publishes, and what becomes of the last two. -/
structure Published (d d' : Drive) : Prop where
  slew : |d'.steerErrorAve - d.steerErrorAve| ≤ 15
  last : d'.steerErrorL = d'.steerErrorAve
  lastButOne : d'.steerErrorLl = d.steerErrorAve

theorem afterErrors_published (center : Lines → ℚ) (frames : List Lines) (s : Lines) :
    Published (afterErrors center frames) (afterErrors center (frames ++ [s])) := by
  have h := afterErrors_steered center frames
  rw [afterErrors_concat]
  constructor
  · -- the call compares with cell 1, which holds the value published last
    have hslew := limitError_slew (truncate (center s - 80))
      ((afterErrors center frames).steerError 1)
    rwa [← recordError_newest, h.next, ← recordError_ave] at hslew
  · rfl
  · exact h.last

/-- After any run the errors are in range, and one more call publishes a value
within 15 of the one before. -/
theorem computeError_slew (center : Lines → ℚ) (frames : List Lines) (s : Lines) :
    (Steered (afterErrors center frames) ∧ SteerRange (afterErrors center frames).steerErrorAve) ∧
      Published (afterErrors center frames) (afterErrors center (frames ++ [s])) := by
  have h := afterErrors_steered center frames
  exact ⟨⟨h, h.ave⟩, afterErrors_published center frames s⟩

/-- The same for `compute_error` with its own mean. -/
theorem computeError_steered (frames : List Lines) (s : Lines) :
    let calls := run (fun s d => (computeError s d).val) Drive.init
    Steered (calls frames) ∧ Published (calls frames) (calls (frames ++ [s])) := by
  simp only [computeError_eq]
  exact ⟨afterErrors_steered _ frames, afterErrors_published _ frames s⟩

end SmartCar
