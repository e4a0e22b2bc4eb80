import SmartCar.FindLines.Midline
import SmartCar.FindLines.RingEvidence

/-!
# The probes of `find_huan3`

`find_huan3` looks for the island of a ring with nine pixels around a column of the
centre line. The centre line keeps one column off the borders, so the probes beside it
are on the image; those ten columns to the left and five to the right may not be.
-/

namespace SmartCar

open Imperative Logged

/-! ## The centre line of the search -/

/-- A column with a neighbour on either side. -/
def InnerColumn (j : Int) : Prop := 1 ≤ j ∧ j ≤ 158

section Search

variable (img : Image) (f : Findline1) {i k columnStart : Int}

/-- A search from an inner column ends at an inner centre column. -/
theorem edgeRow_inner (hk : InnerColumn k) (hbelow : i < 118 → f.midline (i + 1) = k)
    (hi : i ≤ 118) : InnerColumn (edgeRow img f i k).val.midline := by
  have ha := scanDown_spec k 2 (leftJump img i)
  have hb := scanUp_spec k 157 (rightJump img i)
  have hm := edgeMid_val f i (scanDown k 2 (leftJump img i)).val
    (scanUp k 157 (rightJump img i)).val
  obtain ⟨hlo, hhi⟩ := hk
  simp only [edgeRow, val_bind, val_pure]
  generalize (scanDown k 2 (leftJump img i)).val = a at ha hm ⊢
  generalize (scanUp k 157 (rightJump img i)).val = b at hb hm ⊢
  have hleft : leftEdge a = 0 ∨ 2 ≤ leftEdge a ∧ leftEdge a < k := by
    cases a with
    | none => exact Or.inl rfl
    | some j =>
        obtain ⟨h₁, h₂, -⟩ := ha
        exact Or.inr ⟨by simp only [leftEdge]; omega, by simp only [leftEdge]; omega⟩
  have hright : rightEdge b = 159 ∨ rightEdge b ≤ 157 ∧ k < rightEdge b := by
    cases b with
    | none => exact Or.inl rfl
    | some j =>
        obtain ⟨h₁, h₂, -⟩ := hb
        exact Or.inr ⟨by simp only [rightEdge]; omega, by simp only [rightEdge]; omega⟩
  have hmid : InnerColumn (edgeMid f i a b).val := by
    rcases hm with hhalf | ⟨hne, hcopy⟩ | ⟨hdefault, -, -⟩
    · rw [hhalf, Int.tdiv_eq_ediv_of_nonneg (by omega)]
      exact ⟨by omega, by omega⟩
    · rw [hcopy, hbelow (by omega)]
      exact ⟨hlo, hhi⟩
    · rw [hdefault]
      exact ⟨by decide, by decide⟩
  obtain ⟨hmid₁, hmid₂⟩ := hmid
  rw [clampColumn_of_mem (by omega) (by omega)]
  exact ⟨hmid₁, hmid₂⟩

/-- Rows `i + 1` to 118 have inner centre columns, the last of which starts row `i`. -/
structure InnerInv (i : Int) (st : Findline1 × Int) : Prop where
  rows : ∀ j, i < j → j ≤ 118 → InnerColumn (st.1.midline j)
  start : InnerColumn st.2
  below : i < 118 → st.1.midline (i + 1) = st.2

theorem findEdges_inner (hstart : InnerColumn columnStart) :
    InnerInv 10 (findEdges img f columnStart).val := by
  unfold findEdges
  refine foldDown_rule (fun i st => InnerInv i st) rfl
    ⟨fun j h₁ h₂ => absurd h₁ (by omega), hstart, fun h => absurd h (by omega)⟩ ?_
  rintro i ⟨g, k⟩ hlo hhi ⟨hrows, hk, hbelow⟩
  have hrow := edgeRow_inner img g hk hbelow hhi
  simp only [val_bind, storeRow_val, val_pure]
  refine ⟨fun j hj hj' => ?_, hrow, fun _ => ?_⟩
  · rcases eq_or_ne j i with rfl | hne
    · rwa [midline_eq_row, row_setRow_self]
    · rw [midline_eq_row, row_setRow_of_ne g hne]
      exact hrows j (by omega) hj'
  · rw [midline_eq_row, show i - 1 + 1 = i by ring, row_setRow_self]

end Search

/-! ## The reads of one row -/

/-- The probes around row `i` and column `j` that are read are on the image. -/
structure ProbeFits (img : Image) (i j : Int) : Prop where
  left : img i j ≠ 0 → img i (j - 1) ≠ 0 → 10 ≤ j
  right : img i j ≠ 0 → img i (j - 1) ≠ 0 → img i (j - 10) ≠ 0 → img (i - 5) j ≠ 0 →
    img (i - 10) j ≠ 0 → img (i - 15) j ≠ 0 → img (i - 20) j ≠ 0 → img (i - 25) j ≠ 0 → j ≤ 154

def LeftPeak (f : Findline1) (i : Int) : Prop :=
  f.leftline (i + 3) < f.leftline i ∧ f.leftline (i - 3) < f.leftline i ∧
    f.leftline (i + 5) < f.leftline i ∧ f.leftline (i - 5) < f.leftline i

def RightPeak (f : Findline1) (i : Int) : Prop :=
  f.rightline i < f.rightline (i + 3) ∧ f.rightline i < f.rightline (i - 3) ∧
    f.rightline i < f.rightline (i + 5) ∧ f.rightline i < f.rightline (i - 5)

section Reads

variable {img : Image} {f : Findline1} {i j : Int}

theorem huan3Probe_inBounds_iff (img : Image) (hlo : 35 < i) (hhi : i ≤ 100) (hj : InnerColumn j) :
    All Access.InBounds (huan3Probe img i j) ↔ ProbeFits img i j := by
  obtain ⟨hj₁, hj₂⟩ := hj
  have hpixel : ∀ d, 0 ≤ d → d ≤ 25 → (Access.pixel (i - d) j).InBounds :=
    fun d _ _ => ⟨⟨by omega, by omega⟩, by omega, by omega⟩
  have hhere : (Access.pixel i j).InBounds := ⟨⟨by omega, by omega⟩, by omega, by omega⟩
  have hbeside : (Access.pixel i (j - 1)).InBounds := ⟨⟨by omega, by omega⟩, by omega, by omega⟩
  have hleft : (Access.pixel i (j - 10)).InBounds ↔ 10 ≤ j := by
    simp only [Access.InBounds]
    omega
  have hright : (Access.pixel i (j + 5)).InBounds ↔ j ≤ 154 := by
    simp only [Access.InBounds]
    omega
  simp only [huan3Probe, all_and, all_white, white_val, bne_iff_ne, hhere, hbeside, hleft, hright,
    hpixel 5 (by decide) (by decide), hpixel 10 (by decide) (by decide),
    hpixel 15 (by decide) (by decide), hpixel 20 (by decide) (by decide),
    hpixel 25 (by decide) (by decide), true_and]
  constructor
  · intro h
    exact ⟨fun h₀ h₁ => (h h₀ h₁).1, fun h₀ h₁ => (h h₀ h₁).2⟩
  · exact fun h h₀ h₁ => ⟨h.left h₀ h₁, h.right h₀ h₁⟩

/-- The rows of the arrays that a row of `find_huan3` reads. -/
theorem huan3_rows (hlo : 35 < i) (hhi : i ≤ 100) : (0 ≤ i ∧ i ≤ 119) ∧ (0 ≤ i + 3 ∧ i + 3 ≤ 119) ∧
    (0 ≤ i - 3 ∧ i - 3 ≤ 119) ∧ (0 ≤ i + 5 ∧ i + 5 ≤ 119) ∧ (0 ≤ i - 5 ∧ i - 5 ≤ 119) := by
  omega

/-- A row reads its probes where its edge shows a peak. -/
theorem leftHuan3At_inBounds_iff (hlo : 35 < i) (hhi : i ≤ 100)
    (hmid : InnerColumn (f.midline (i + 5))) : All Access.InBounds (leftHuan3At img f i) ↔
      (LeftPeak f i → ProbeFits img i (f.midline (i + 5))) := by
  have hprobe := huan3Probe_inBounds_iff img hlo hhi hmid
  obtain ⟨hrow, hnear, hfar, hnearer, hfarther⟩ := huan3_rows hlo hhi
  simp only [leftHuan3At, LeftPeak, all_bind, all_ite, all_and, all_gt, all_le, all_eq, all_abs,
    all_sub, all_ofNat, all_pure, all_left, all_right, all_mid, all_rflag, val_and, val_gt,
    left_val, mid_val, Bool.and_eq_true, decide_eq_true_eq, gt_iff_lt, Access.InBounds,
    Access.InRows, Access.row, hrow, hnear, hfar, hnearer, hfarther, hprobe, and_true, true_and,
    implies_true, if_true_right, and_imp, and_self]

theorem rightHuan3At_inBounds_iff (hlo : 35 < i) (hhi : i ≤ 100)
    (hmid : InnerColumn (f.midline (i + 5))) : All Access.InBounds (rightHuan3At img f i) ↔
      (RightPeak f i → ProbeFits img i (f.midline (i + 5))) := by
  have hprobe := huan3Probe_inBounds_iff img hlo hhi hmid
  obtain ⟨hrow, hnear, hfar, hnearer, hfarther⟩ := huan3_rows hlo hhi
  simp only [rightHuan3At, RightPeak, all_bind, all_ite, all_and, all_lt, all_le, all_eq, all_abs,
    all_sub, all_ofNat, all_pure, all_left, all_right, all_mid, all_lflag, val_and, val_lt,
    right_val, mid_val, Bool.and_eq_true, decide_eq_true_eq, Access.InBounds,
    Access.InRows, Access.row, hrow, hnear, hfar, hnearer, hfarther, hprobe, and_true, true_and,
    implies_true, if_true_right, and_imp, and_self]

end Reads

/-! ## The loop -/

/-- On every row down to the first island the probes that are read are on the image. -/
def ProbesFit (img : Image) (f : Findline1) (peak : Int → Prop)
    (island : Int → Logged Access Bool) : Prop :=
  ∀ i, 35 < i → i ≤ 100 → (∀ k, i < k → k ≤ 100 → (island k).val = false) → peak i →
    ProbeFits img i (f.midline (i + 5))

/-- The probes fit on the side that has reached the second stage. -/
structure StageFits (img : Image) (s : Lines) : Prop where
  left : s.js1 = 2 → ProbesFit img s.f1 (LeftPeak s.f1) (leftHuan3At img s.f1)
  right : s.js2 = 2 → ProbesFit img s.f1 (RightPeak s.f1) (rightHuan3At img s.f1)

theorem findHuan3_inBounds_iff (img : Image) {s : Lines} (hstage : OneSide 2 s.js1 s.js2)
    (htwo : s.js1 = 2 ∨ s.js2 = 2) (hmid : ∀ i, 10 < i → i ≤ 118 → InnerColumn (s.f1.midline i)) :
    All Access.InBounds (findHuan3 img s) ↔ StageFits img s := by
  have hone := hstage.one
  simp only [findHuan3, all_bind, all_pure, and_true]
  rcases htwo with hleft | hright
  · have hother : s.js2 = 0 := by omega
    have hrow : huan3At img s = leftHuan3At img s.f1 := by
      funext i
      rw [huan3At, if_pos ⟨hleft, hother⟩]
    rw [hrow, all_scanDown_iff]
    refine ⟨fun h => ⟨fun _ i hlo hhi hnone => ?_, fun htwo => by omega⟩,
      fun h i hlo hhi hnone => ?_⟩
    · exact (leftHuan3At_inBounds_iff hlo hhi (hmid _ (by omega) (by omega))).mp
        (h i hlo hhi hnone)
    · exact (leftHuan3At_inBounds_iff hlo hhi (hmid _ (by omega) (by omega))).mpr
        (h.left hleft i hlo hhi hnone)
  · have hother : s.js1 = 0 := by omega
    have hrow : huan3At img s = rightHuan3At img s.f1 := by
      funext i
      rw [huan3At, if_neg (by omega), if_pos ⟨hother, hright⟩]
    rw [hrow, all_scanDown_iff]
    refine ⟨fun h => ⟨fun htwo => by omega, fun _ i hlo hhi hnone => ?_⟩,
      fun h i hlo hhi hnone => ?_⟩
    · exact (rightHuan3At_inBounds_iff hlo hhi (hmid _ (by omega) (by omega))).mp
        (h i hlo hhi hnone)
    · exact (rightHuan3At_inBounds_iff hlo hhi (hmid _ (by omega) (by omega))).mpr
        (h.right hright i hlo hhi hnone)

/-! ## Frames -/

/-- The frame up to `find_huan3`. -/
def secondStage (fr : Frame) (s : Lines) : Lines :=
  let judged := (cornerBlock (cornersOf fr (findline1 fr s).val).val).val
  (onlyIf (judged.js1 = 1 ∨ judged.js2 = 1) findHuan2 judged).val

section Frames

variable (frames : List Frame) (fr : Frame)

theorem secondStage_spec : OneSide 2 (secondStage fr (afterFrames frames)).js1
      (secondStage fr (afterFrames frames)).js2 ∧
    (secondStage fr (afterFrames frames)).f1 = (findline1 fr (afterFrames frames)).val.f1 := by
  obtain ⟨⟨hjs1, hjs2⟩, -⟩ := reachable_flags ⟨frames, rfl⟩
  obtain ⟨-, h₁, h₂⟩ := findline1_ring fr (s := afterFrames frames)
  obtain ⟨-, -, -, hf1, -⟩ := cornersOf_ring fr (s := (findline1 fr (afterFrames frames)).val)
  have hjudged := judged_spec fr (h₁.trans hjs1) (h₂.trans hjs2)
  obtain ⟨hstage, hrest, -, -⟩ := huan2_spec hjudged.stage
  have hsame := congrArg Lines.f1 hrest
  refine ⟨hstage, ?_⟩
  rw [← hf1, ← hjudged.f1]
  exact hsame

/-- In every frame of every run that reaches the second stage `find_huan3` reads inside
the image exactly if its probes fit. -/
theorem probes_inBounds_iff : ((secondStage fr (afterFrames frames)).js1 = 2 ∨
      (secondStage fr (afterFrames frames)).js2 = 2 →
        All Access.InBounds (findHuan3 fr.image (secondStage fr (afterFrames frames)))) ↔
    StageFits fr.image (secondStage fr (afterFrames frames)) := by
  obtain ⟨hstage, hf1⟩ := secondStage_spec frames fr
  have hstart := afterFrames_columnStart frames
  have hcolumn : InnerColumn (afterFrames frames).columnStart := ⟨by omega, by omega⟩
  have hinner := (findEdges_inner fr.image (afterFrames frames).f1 hcolumn).rows
  rw [← findline1_f1, ← hf1] at hinner
  by_cases htwo : (secondStage fr (afterFrames frames)).js1 = 2 ∨
      (secondStage fr (afterFrames frames)).js2 = 2
  · rw [imp_iff_right htwo]
    exact findHuan3_inBounds_iff fr.image hstage htwo hinner
  · obtain ⟨hleft, hright⟩ := not_or.mp htwo
    exact iff_of_true (fun h => absurd h htwo) ⟨fun h => absurd h hleft, fun h => absurd h hright⟩

/-- A narrow road along the left border, with a left corner at row 90. -/
def farLeftRoad : List (Int × Int × Int) :=
  [(118, 3, 100), (117, 3, 60), (116, 3, 40), (115, 3, 25), (114, 3, 15), (91, 3, 13), (90, 6, 13),
    (30, 0, 13)]

theorem farLeftRoad_stage : (secondStage (bandFrame farLeftRoad) Lines.init).js1 = 2 := by
  rw [secondStage, findline1_band]
  decide +kernel

theorem farLeftRoad_reads : Access.pixel 90 (-2) ∈
    (findHuan3 (bandImage farLeftRoad) (secondStage (bandFrame farLeftRoad) Lines.init)).log := by
  rw [secondStage, findline1_band]
  decide +kernel

/-- On a narrow road along the left border a probe reads left of the image. -/
theorem farLeftRoad_outside : ¬ ∀ frames fr, (secondStage fr (afterFrames frames)).js1 = 2 ∨
      (secondStage fr (afterFrames frames)).js2 = 2 →
    All Access.InBounds (findHuan3 fr.image (secondStage fr (afterFrames frames))) := by
  intro hclaim
  have hread := hclaim [] (bandFrame farLeftRoad) (Or.inl farLeftRoad_stage) _ farLeftRoad_reads
  exact absurd hread.2.1 (by decide)

end Frames

end SmartCar
