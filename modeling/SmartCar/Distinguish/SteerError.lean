import Mathlib.Algebra.BigOperators.Pi
import Mathlib.Data.List.GetD
import SmartCar.Distinguish.Functions
import SmartCar.FindLines.CleanRoad
import SmartCar.FindLines.RingMachine

/-!
# Where the steering error points

The error is the weighted mean of the centre line on the rows beyond
`toppoint`, minus 80. Rows 40 to 109 carry weight. Below row 109 the mean lies
on the road; with `toppoint` at row 109 or nearer no row is left, the mean stays
0 and the car steers fully to the left, whatever the centre line shows.
-/

namespace SmartCar

open Imperative Logged Numeric

/-! ## Weights -/

section Weights

theorem midLineWeight_table : ∀ k : Fin 120, 0 ≤ midLineWeightTable.getD k 0 ∧
    (0 < midLineWeightTable.getD k 0 ↔ 40 ≤ (k : Nat) ∧ (k : Nat) ≤ 109) := by
  decide +kernel

theorem midLineWeight_nonneg (i : Int) : 0 ≤ midLineWeight i := by
  by_cases h : i.toNat < 120
  · exact (midLineWeight_table ⟨i.toNat, h⟩).1
  · rw [midLineWeight, List.getD_eq_default _ _ (by simp [midLineWeightTable]; omega)]

theorem midLineWeight_pos (i : Int) : 0 < midLineWeight i ↔ 40 ≤ i ∧ i ≤ 109 := by
  by_cases h : i.toNat < 120
  · have hrow := (midLineWeight_table ⟨i.toNat, h⟩).2
    rw [midLineWeight, hrow]
    dsimp only
    omega
  · rw [midLineWeight, List.getD_eq_default _ _ (by simp [midLineWeightTable]; omega)]
    simp
    omega

end Weights

/-! ## The mean -/

section Mean

variable (f : Findline1) (toppoint : Int)

theorem centerSums_eq : centerSums f toppoint =
    (∑ i ∈ Finset.Ioc toppoint 119, (f.midline i : ℚ) * midLineWeight i,
      ∑ i ∈ Finset.Ioc toppoint 119, midLineWeight i) := by
  have hsum : centerSums f toppoint = (0, 0) + ∑ i ∈ Finset.Ioc toppoint 119,
      ((f.midline i : ℚ) * midLineWeight i, midLineWeight i) :=
    foldDown_sum _ _ fun i sums _ _ => rfl
  rw [hsum]
  ext
  · simp [Prod.fst_sum]
  · simp [Prod.snd_sum]

variable {f toppoint}

theorem weightSum_pos (htop : toppoint < 109) :
    0 < ∑ i ∈ Finset.Ioc toppoint 119, midLineWeight i := by
  refine Finset.sum_pos' (fun i _ => midLineWeight_nonneg i) ⟨109, ?_, ?_⟩
  · simpa using htop
  · exact (midLineWeight_pos 109).mpr (by decide)

/-- No row beyond row 109 is left: the mean stays 0. -/
theorem rawError_near (htop : 109 ≤ toppoint) : rawError f toppoint = -80 := by
  have hweight : ∀ i ∈ Finset.Ioc toppoint 119, midLineWeight i = 0 := by
    intro i hi
    rw [Finset.mem_Ioc] at hi
    have hpos : ¬ 0 < midLineWeight i := by rw [midLineWeight_pos]; omega
    exact le_antisymm (not_lt.mp hpos) (midLineWeight_nonneg i)
  have hmean : centerMeanValue f toppoint = 0 := by
    simp [centerMeanValue, centerSums_eq, Finset.sum_congr rfl hweight]
  rw [rawError, hmean]
  exact le_antisymm (truncate_le (by norm_num)) (le_truncate (by norm_num))

theorem rawError_far (htop : toppoint < 109) : rawError f toppoint =
    truncate ((∑ i ∈ Finset.Ioc toppoint 119, (f.midline i : ℚ) * midLineWeight i) /
      (∑ i ∈ Finset.Ioc toppoint 119, midLineWeight i) - 80) := by
  simp only [rawError, centerMeanValue, centerSums_eq]
  rw [if_pos (weightSum_pos htop).ne']

/-- A row that the error is computed from. -/
def Counts (toppoint i : Int) : Prop := toppoint < i ∧ i ≤ 119 ∧ 0 < midLineWeight i

theorem Counts.row {i : Int} (h : Counts toppoint i) : 11 ≤ i ∧ i ≤ 118 := by
  have hrow := (midLineWeight_pos i).mp h.2.2
  omega

/-- The error lies between those of two rows that count. -/
theorem rawError_between (htop : toppoint < 109) :
    (∃ i, Counts toppoint i ∧ f.midline i - 80 ≤ rawError f toppoint) ∧
      ∃ i, Counts toppoint i ∧ rawError f toppoint ≤ f.midline i - 80 := by
  have hnonneg : ∀ i ∈ Finset.Ioc toppoint 119, 0 ≤ midLineWeight i :=
    fun i _ => midLineWeight_nonneg i
  rw [rawError_far htop]
  constructor
  · obtain ⟨i, hi, hweight, hle⟩ :=
      exists_le_mean (x := fun i => (f.midline i : ℚ)) hnonneg (weightSum_pos htop)
    rw [Finset.mem_Ioc] at hi
    refine ⟨i, ⟨hi.1, hi.2, hweight⟩, le_truncate ?_⟩
    push_cast
    exact sub_le_sub_right hle 80
  · obtain ⟨i, hi, hweight, hle⟩ :=
      exists_mean_le (x := fun i => (f.midline i : ℚ)) hnonneg (weightSum_pos htop)
    rw [Finset.mem_Ioc] at hi
    refine ⟨i, ⟨hi.1, hi.2, hweight⟩, truncate_le ?_⟩
    push_cast
    exact sub_le_sub_right hle 80

end Mean

/-! ## The error points towards the road -/

section TowardsRoad

variable (f : Findline1) (toppoint : Int)

/-- The error lies between those of the rows that count, if there are any, and of
the rows 11 to 118 in any case; so it never points away from a road that lies on
one side. -/
structure TowardsRoad (e : Int) : Prop where
  counted : (∃ i, Counts toppoint i) → (∃ i, Counts toppoint i ∧ f.midline i - 80 ≤ e) ∧
    ∃ i, Counts toppoint i ∧ e ≤ f.midline i - 80
  searched : (∃ i, (11 ≤ i ∧ i ≤ 118) ∧ f.midline i - 80 ≤ e) ∧
    ∃ i, (11 ≤ i ∧ i ≤ 118) ∧ e ≤ f.midline i - 80
  right : (∀ i, 11 ≤ i → i ≤ 118 → 80 ≤ f.midline i) → 0 ≤ e
  left : (∀ i, 11 ≤ i → i ≤ 118 → f.midline i ≤ 80) → e ≤ 0

variable {f toppoint}

/-- Bounds by two of the rows 11 to 118 fix the side. -/
theorem TowardsRoad.of_between {e : Int}
    (hcounted : (∃ i, Counts toppoint i) →
      (∃ i, Counts toppoint i ∧ f.midline i - 80 ≤ e) ∧
        ∃ i, Counts toppoint i ∧ e ≤ f.midline i - 80)
    (hsearched : (∃ i, (11 ≤ i ∧ i ≤ 118) ∧ f.midline i - 80 ≤ e) ∧
      ∃ i, (11 ≤ i ∧ i ≤ 118) ∧ e ≤ f.midline i - 80) : TowardsRoad f toppoint e := by
  obtain ⟨⟨i, hi, hle⟩, j, hj, hge⟩ := hsearched
  refine ⟨hcounted, ⟨⟨i, hi, hle⟩, j, hj, hge⟩, fun hroad => ?_, fun hroad => ?_⟩
  · have hthis := hroad i hi.1 hi.2
    omega
  · have hthis := hroad j hj.1 hj.2
    omega

/-- The error points towards the road exactly if some row that carries weight lies
beyond `toppoint`, or the rows 11 to 118 happen to reach from the left border. The
weights and their sums are exact. -/
theorem rawError_towardsRoad_iff (s : Lines) :
    TowardsRoad s.f1 s.f2.toppoint (rawError s.f1 s.f2.toppoint) ↔ s.f2.toppoint < 109 ∨
      (∃ i, (11 ≤ i ∧ i ≤ 118) ∧ s.f1.midline i ≤ 0) ∧
        ∃ i, (11 ≤ i ∧ i ≤ 118) ∧ 0 ≤ s.f1.midline i := by
  rcases Int.lt_or_le s.f2.toppoint 109 with htop | htop
  · refine iff_of_true (TowardsRoad.of_between (fun _ => rawError_between htop) ?_) (Or.inl htop)
    obtain ⟨⟨i, hi, hle⟩, j, hj, hge⟩ := rawError_between (f := s.f1) htop
    exact ⟨⟨i, hi.row, hle⟩, j, hj.row, hge⟩
  · have hnone : ¬ ∃ i, Counts s.f2.toppoint i := by
      rintro ⟨i, hlo, -, hweight⟩
      have hrow := (midLineWeight_pos i).mp hweight
      omega
    rw [rawError_near htop]
    constructor
    · rintro ⟨-, ⟨⟨i, hi, hle⟩, j, hj, hge⟩, -, -⟩
      exact Or.inr ⟨⟨i, hi, by omega⟩, j, hj, by omega⟩
    · rintro (hlt | ⟨⟨i, hi, hle⟩, j, hj, hge⟩)
      · omega
      · exact TowardsRoad.of_between (fun h => absurd h hnone)
          ⟨⟨i, hi, by omega⟩, j, hj, by omega⟩

/-- A near obstacle to the left: the road closes in to the right on the nearest
rows. -/
def closingRoad : List (Int × Int × Int) :=
  [(119, 0, 159), (118, 79, 159), (117, 118, 159), (116, 137, 159), (115, 147, 159), (0, 0, 159)]

/-- The frame keeps the centre line that `findline1` finds. -/
theorem closingRoad_rows : Quiet (ringFlags (stagesOf (bandFrame closingRoad)
      (bandFindline1 closingRoad Lines.init)).val) ∧
    (bandStep closingRoad Lines.init).f2.toppoint = 115 ∧ ∀ k : Fin 108,
      80 ≤ (bandFindline1 closingRoad Lines.init).f1.midline (11 + ((k : Nat) : Int)) := by
  decide +kernel

theorem closingRoad_right : (nextFrame (bandFrame closingRoad) Lines.init).f2.toppoint = 115 ∧
    ∀ i, 11 ≤ i → i ≤ 118 → 80 ≤ (nextFrame (bandFrame closingRoad) Lines.init).f1.midline i := by
  obtain ⟨hquiet, htop, hrows⟩ := closingRoad_rows
  have hf1 : (bandStep closingRoad Lines.init).f1 = (bandFindline1 closingRoad Lines.init).f1 :=
    findline2_f1_of_quiet _ rfl rfl hquiet
  rw [nextFrame_band]
  refine ⟨htop, fun i hlo hhi => ?_⟩
  have hrow := hrows ⟨(i - 11).toNat, by omega⟩
  dsimp only at hrow
  rwa [show (11 : Int) + ((i - 11).toNat : Int) = i by omega, ← hf1] at hrow

/-- All of this road lies to the right, and the car steers to the left. -/
theorem closingRoad_steers_left : ¬ ∀ s, Reachable s →
    TowardsRoad s.f1 s.f2.toppoint (rawError s.f1 s.f2.toppoint) := by
  intro hclaim
  have htowards := hclaim (nextFrame (bandFrame closingRoad) Lines.init)
    ⟨[bandFrame closingRoad], rfl⟩
  rw [rawError_near (by rw [closingRoad_right.1]; decide)] at htowards
  exact absurd (htowards.right closingRoad_right.2) (by decide)

end TowardsRoad

end SmartCar
