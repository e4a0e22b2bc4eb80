import SmartCar.FindLines.Midline

/-!
# `findline1` finds the nearest edges

The search of a row starts from the centre column of the row below it, and of
row 118 from `column_start`. To either side it stops at the nearest edge: two
white pixels and a black one, going outwards.
-/

namespace SmartCar

open Imperative Logged

/-! ## What the search is for -/

/-- The columns of row `i`, from `k` to the left, at which an edge is seen. -/
def leftJumps (img : Image) (i k : Int) : Set Int :=
  {j | (3 ≤ j ∧ j ≤ k) ∧ img i j ≠ 0 ∧ img i (j - 1) ≠ 0 ∧ img i (j - 2) = 0}

/-- The columns of row `i`, from `k` to the right, at which an edge is seen. -/
def rightJumps (img : Image) (i k : Int) : Set Int :=
  {j | (k ≤ j ∧ j ≤ 156) ∧ img i j ≠ 0 ∧ img i (j + 1) ≠ 0 ∧ img i (j + 2) = 0}

/-- The row holds the nearest edges to either side of column `k`. -/
structure NearestEdges (img : Image) (i k : Int) (row : EdgeRow) : Prop where
  leftFlag : row.leftlineflag = 1 ↔ (leftJumps img i k).Nonempty
  leftFound : ∀ j, IsGreatest (leftJumps img i k) j → row.leftline = j - 1
  leftLost : leftJumps img i k = ∅ → row.leftlineflag = 0 ∧ row.leftline = 0
  rightFlag : row.rightlineflag = 1 ↔ (rightJumps img i k).Nonempty
  rightFound : ∀ j, IsLeast (rightJumps img i k) j → row.rightline = j + 1
  rightLost : rightJumps img i k = ∅ → row.rightlineflag = 0 ∧ row.rightline = 159

/-- The column from which row `i` is searched. -/
def startColumn (columnStart : Int) (f : Findline1) (i : Int) : Int :=
  if i < 118 then f.midline (i + 1) else columnStart

/-- The centre column lies between two edges that are apart. -/
structure Centred (row : EdgeRow) : Prop where
  left : row.leftline ≤ row.midline
  right : row.midline ≤ row.rightline
  apart : row.leftline < row.rightline

/-! ## One row -/

section Row

variable {img : Image} {i k : Int}

theorem leftJumps_eq : leftJumps img i k =
    {j | (2 < j ∧ j ≤ k) ∧ (leftJump img i j).val = true} := by
  ext j
  simp only [leftJumps, leftJump, Set.mem_ofPred_eq, val_and, white_val, black_val,
    Bool.and_eq_true, bne_iff_ne, beq_iff_eq, Int.lt_iff_add_one_le, Int.reduceAdd, and_assoc]

theorem rightJumps_eq : rightJumps img i k =
    {j | (k ≤ j ∧ j < 157) ∧ (rightJump img i j).val = true} := by
  ext j
  have hcolumn : j < 157 ↔ j ≤ 156 := by omega
  simp only [rightJumps, rightJump, Set.mem_ofPred_eq, val_and, white_val, black_val,
    Bool.and_eq_true, bne_iff_ne, beq_iff_eq, hcolumn, and_assoc]

theorem leftScan_some {r : Int} (h : (scanDown k 2 (leftJump img i)).val = some r) :
    IsGreatest (leftJumps img i k) r := by
  have hspec := scanDown_spec k 2 (leftJump img i)
  rw [h, firstDown_some_iff] at hspec
  rwa [leftJumps_eq]

theorem leftScan_none (h : (scanDown k 2 (leftJump img i)).val = none) :
    leftJumps img i k = ∅ := by
  have hspec := scanDown_spec k 2 (leftJump img i)
  rw [h, firstDown_none_iff] at hspec
  rwa [leftJumps_eq]

theorem rightScan_some {r : Int} (h : (scanUp k 157 (rightJump img i)).val = some r) :
    IsLeast (rightJumps img i k) r := by
  have hspec := scanUp_spec k 157 (rightJump img i)
  rw [h, firstUp_some_iff] at hspec
  rwa [rightJumps_eq]

theorem rightScan_none (h : (scanUp k 157 (rightJump img i)).val = none) :
    rightJumps img i k = ∅ := by
  have hspec := scanUp_spec k 157 (rightJump img i)
  rw [h, firstUp_none_iff] at hspec
  rwa [rightJumps_eq]

/-- What a row keeps of a search: the flag says whether there is an edge, the line is
drawn at the nearest one. -/
theorem search_nearest {found : Option Int} {jumps : Set Int} {Nearest : Int → Prop}
    (edge : Option Int → Int) (hsome : ∀ r, found = some r → Nearest r)
    (hnone : found = none → jumps = ∅) (hmem : ∀ r, Nearest r → r ∈ jumps)
    (hunique : ∀ r r', Nearest r → Nearest r' → r = r') :
    (edgeFlag found = 1 ↔ jumps.Nonempty) ∧ (∀ j, Nearest j → edge found = edge (some j)) ∧
      (jumps = ∅ → edgeFlag found = 0 ∧ edge found = edge none) := by
  cases found with
  | some r =>
      have hnearest := hsome r rfl
      refine ⟨iff_of_true rfl ⟨r, hmem r hnearest⟩, fun j hj => ?_, fun hempty => ?_⟩
      · rw [hunique j r hj hnearest]
      · exact absurd (hmem r hnearest) (hempty ▸ Set.notMem_empty r)
  | none =>
      have hempty := hnone rfl
      rw [hempty]
      refine ⟨iff_of_false (by simp [edgeFlag]) Set.not_nonempty_empty, fun j hj => ?_, fun _ => ?_⟩
      · exact absurd (hempty ▸ hmem j hj) (Set.notMem_empty j)
      · exact ⟨rfl, rfl⟩

theorem edgeRow_nearest (img : Image) (f : Findline1) (i k : Int) :
    NearestEdges img i k (edgeRow img f i k).val := by
  obtain ⟨hleftFlag, hleftFound, hleftLost⟩ := search_nearest leftEdge
    (fun _ => leftScan_some) (leftScan_none (i := i) (k := k)) (fun _ h => h.1)
    fun _ _ h h' => h.unique h'
  obtain ⟨hrightFlag, hrightFound, hrightLost⟩ := search_nearest rightEdge
    (fun _ => rightScan_some) (rightScan_none (i := i) (k := k)) (fun _ h => h.1)
    fun _ _ h h' => h.unique h'
  exact ⟨hleftFlag, hleftFound, hleftLost, hrightFlag, hrightFound, hrightLost⟩

theorem edgeMid_inBounds (f : Findline1) (hlo : 10 < i) (hhi : i ≤ 118) (a b : Option Int) :
    All Access.InBounds (edgeMid f i a b) := by
  cases a <;> cases b <;> simp [edgeMid, Access.InBounds, Access.InRows, Access.row] <;> grind

/-- A search that starts on the image stays on it. -/
theorem edgeRow_inBounds (img : Image) (f : Findline1) (hlo : 10 < i) (hhi : i ≤ 118)
    (hstart : 0 ≤ k ∧ k ≤ 159) : All Access.InBounds (edgeRow img f i k) := by
  simp only [edgeRow, all_bind, all_pure, and_true]
  refine ⟨all_scanDown fun j _ _ => ?_, all_scanUp fun j _ _ => ?_, edgeMid_inBounds f hlo hhi _ _⟩
  · simp only [leftJump, all_and, all_white, all_black, Access.InBounds]
    omega
  · simp only [rightJump, all_and, all_white, all_black, Access.InBounds]
    omega

end Row

/-! ## All rows -/

section Rows

variable {img : Image} {f : Findline1} {columnStart : Int}

/-- Rows `i + 1` to 118 hold their nearest edges, and row `i` is next. -/
structure NearestInv (img : Image) (columnStart i : Int) (st : Findline1 × Int) : Prop where
  rows : ∀ j, i < j → j ≤ 118 →
    NearestEdges img j (startColumn columnStart st.1 j) (st.1.row j)
  start : st.2 = startColumn columnStart st.1 i

theorem startColumn_setRow (f : Findline1) (row : EdgeRow) {i j : Int} (h : i ≤ j) :
    startColumn columnStart (f.setRow i row) j = startColumn columnStart f j := by
  unfold startColumn
  split
  next => rw [midline_eq_row, row_setRow_of_ne f (by omega), ← midline_eq_row]
  next => rfl

theorem findEdges_nearest (img : Image) (f : Findline1) (columnStart : Int) :
    NearestInv img columnStart 10 (findEdges img f columnStart).val := by
  unfold findEdges
  refine foldDown_rule (fun i st => NearestInv img columnStart i st) rfl
    ⟨fun j h₁ h₂ => absurd h₁ (by omega), rfl⟩ ?_
  rintro i ⟨g, k⟩ hlo hhi ⟨hrows, hstart⟩
  simp only at hstart
  simp only [val_bind, storeRow_val, val_pure]
  constructor
  · intro j hj hj'
    rw [startColumn_setRow g _ (by omega)]
    rcases eq_or_ne j i with rfl | hne
    · -- the row just searched
      rw [row_setRow_self, ← hstart]
      exact edgeRow_nearest img g j k
    · rw [row_setRow_of_ne g hne]
      exact hrows j (by omega) hj'
  · rw [startColumn, if_pos (by omega), midline_eq_row, show i - 1 + 1 = i by ring, row_setRow_self]

theorem findEdges_inBounds (img : Image) (f : Findline1)
    (hstart : 0 ≤ columnStart ∧ columnStart ≤ 159) :
    All Access.InBounds (findEdges img f columnStart) := by
  refine all_foldDown (fun _ st => 0 ≤ st.2 ∧ st.2 ≤ 159) hstart ?_
  rintro i ⟨g, k⟩ hlo hhi hk
  constructor
  · have hrow := edgeRow_inBounds img g hlo hhi hk
    simp [hrow, Findline1.storeRow, Access.InBounds, Access.InRows, Access.row]
    omega
  · exact clampColumn_mem _

end Rows

/-! ## The frame -/

/-- With the start column on the image, `findline1` leaves in every row the nearest
edges around the column it was searched from, and before it calls `find_toppoint`
it stays within the image and the arrays. -/
theorem findline1_nearest (fr : Frame) (s : Lines) (hlo : 0 ≤ s.columnStart)
    (hhi : s.columnStart ≤ 159) :
    (∀ i, 11 ≤ i → i ≤ 118 →
      NearestEdges fr.image i (startColumn s.columnStart (findline1 fr s).val.f1 i)
          ((findline1 fr s).val.f1.row i) ∧
        Centred ((findline1 fr s).val.f1.row i)) ∧
      All Access.InBounds (findline1Rows fr s) := by
  rw [findline1_f1]
  constructor
  · intro i h₁ h₂
    have hordered := findEdges_ordered fr.image s.f1 s.columnStart hlo hhi h₁ h₂
    refine ⟨(findEdges_nearest fr.image s.f1 s.columnStart).rows i (by omega) h₂, ?_⟩
    exact ⟨hordered.left_le_mid, hordered.mid_le_right, hordered.left_lt_right⟩
  · have hedges := findEdges_inBounds fr.image s.f1 ⟨hlo, hhi⟩
    simp [findline1Rows, hedges, Access.InBounds, Access.InRows, Access.row]

/-- The road that is cut off, after one that fills the image. -/
theorem findline1_nearest_cutRoad :
    (∀ i, 11 ≤ i → i ≤ 118 →
      NearestEdges cutRoad.image i
          (startColumn (afterFrames [⟨fun _ _ => 1, 0, 0⟩]).columnStart
            (findline1 cutRoad (afterFrames [⟨fun _ _ => 1, 0, 0⟩])).val.f1 i)
          ((findline1 cutRoad (afterFrames [⟨fun _ _ => 1, 0, 0⟩])).val.f1.row i) ∧
        Centred ((findline1 cutRoad (afterFrames [⟨fun _ _ => 1, 0, 0⟩])).val.f1.row i)) ∧
      All Access.InBounds (findline1Rows cutRoad (afterFrames [⟨fun _ _ => 1, 0, 0⟩])) := by
  have hstart := afterFrames_columnStart [⟨fun _ _ => 1, 0, 0⟩]
  exact findline1_nearest cutRoad _ (by omega) (by omega)

end SmartCar
