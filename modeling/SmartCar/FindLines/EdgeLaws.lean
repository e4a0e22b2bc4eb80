import SmartCar.FindLines.EdgeSearch

/-!
# What the edge search leaves behind

The rows 118 to 11 after `findline1`: each has ordered edges around its centre
column, depends only on the image, the start column and the rows below it, and
no other row is touched.
-/

namespace SmartCar

open Imperative

/-! ## Small facts about rows -/

@[simp] theorem clampColumn_of_mem {m : Int} (hlo : 0 ≤ m) (hhi : m ≤ 159) :
    clampColumn m = m := by
  unfold clampColumn
  grind

theorem clampColumn_mem (m : Int) : 0 ≤ clampColumn m ∧ clampColumn m ≤ 159 := by
  unfold clampColumn
  grind

theorem half_between {a b : Int} (ha : 0 ≤ a) (hab : a ≤ b) :
    a ≤ (a + b).tdiv 2 ∧ (a + b).tdiv 2 ≤ b := by
  rw [Int.tdiv_eq_ediv_of_nonneg (by omega)]
  omega

/-- The cells of a row once both edges have been searched from a column `k`. -/
structure EdgeRow.Ordered (row : EdgeRow) : Prop where
  left_found : row.leftlineflag = 0 ∧ row.leftline = 0 ∨ row.leftlineflag = 1 ∧ 2 ≤ row.leftline
  right_found : row.rightlineflag = 0 ∧ row.rightline = 159 ∨
    row.rightlineflag = 1 ∧ row.rightline ≤ 157
  left_le_mid : row.leftline ≤ row.midline
  mid_le_right : row.midline ≤ row.rightline
  left_lt_right : row.leftline < row.rightline

/-- The row `i` of the arrays. -/
def Findline1.row (f : Findline1) (i : Int) : EdgeRow :=
  ⟨f.leftline i, f.midline i, f.rightline i, f.leftlineflag i, f.rightlineflag i⟩

@[simp] theorem row_setRow_self (f : Findline1) (i : Int) (row : EdgeRow) :
    (f.setRow i row).row i = row := by
  simp [Findline1.row, Findline1.setRow]

theorem row_setRow_of_ne (f : Findline1) {i j : Int} (h : j ≠ i) (row : EdgeRow) :
    (f.setRow i row).row j = f.row j := by
  simp [Findline1.row, Findline1.setRow, h]

theorem midline_eq_row (f : Findline1) (i : Int) : f.midline i = (f.row i).midline := rfl

@[simp] theorem storeRow_val (f : Findline1) (i : Int) (row : EdgeRow) :
    (f.storeRow i row).val = f.setRow i row := rfl

/-! ## One row -/

theorem edgeMid_val (f : Findline1) (i : Int) (a b : Option Int) :
    (edgeMid f i a b).val = (leftEdge a + rightEdge b).tdiv 2 ∨
      (i ≠ 118 ∨ i < 99) ∧ (edgeMid f i a b).val = f.midline (i + 1) ∨
      (edgeMid f i a b).val = 80 ∧ a = none ∧ b = none := by
  cases a with
  | some j =>
      cases b with
      | some j' => exact Or.inl rfl
      | none =>
          simp only [edgeMid, Logged.val_bind, Logged.val_ite]
          split
          next hcopy =>
            have hrow : i < 99 := by simp at hcopy; omega
            exact Or.inr (Or.inl ⟨Or.inr hrow, rfl⟩)
          next => exact Or.inl rfl
  | none =>
      cases b with
      | some j' =>
          simp only [edgeMid, Logged.val_bind, Logged.val_ite]
          split
          next hcopy =>
            have hrow : i < 99 := by simp at hcopy; omega
            exact Or.inr (Or.inl ⟨Or.inr hrow, rfl⟩)
          next => exact Or.inl rfl
      | none =>
          simp only [edgeMid, Logged.val_ite]
          split
          next => exact Or.inr (Or.inr ⟨rfl, by trivial⟩)
          next hne => exact Or.inr (Or.inl ⟨Or.inl hne, rfl⟩)

/-- A search from an image column yields ordered edges, provided the row below
hands its centre column on as the start column. -/
theorem edgeRow_ordered (img : Image) (f : Findline1) (i k : Int) (hlo : 0 ≤ k) (hhi : k ≤ 159)
    (hbelow : i < 118 → f.midline (i + 1) = k) (hi : i ≤ 118) :
    (edgeRow img f i k).val.Ordered := by
  have ha := scanDown_spec k 2 (leftJump img i)
  have hb := scanUp_spec k 157 (rightJump img i)
  have hm := edgeMid_val f i (scanDown k 2 (leftJump img i)).val
    (scanUp k 157 (rightJump img i)).val
  simp only [edgeRow, Logged.val_bind, Logged.val_pure]
  generalize (scanDown k 2 (leftJump img i)).val = a at ha hm ⊢
  generalize (scanUp k 157 (rightJump img i)).val = b at hb hm ⊢
  have hleft : edgeFlag a = 0 ∧ leftEdge a = 0 ∨
      edgeFlag a = 1 ∧ 2 ≤ leftEdge a ∧ leftEdge a < k := by
    cases a with
    | none => exact Or.inl ⟨rfl, rfl⟩
    | some j =>
        obtain ⟨h₁, h₂, -⟩ := ha
        exact Or.inr ⟨rfl, by simp only [leftEdge]; omega, by simp only [leftEdge]; omega⟩
  have hright : edgeFlag b = 0 ∧ rightEdge b = 159 ∨
      edgeFlag b = 1 ∧ rightEdge b ≤ 157 ∧ k < rightEdge b := by
    cases b with
    | none => exact Or.inl ⟨rfl, rfl⟩
    | some j =>
        obtain ⟨h₁, h₂, -⟩ := hb
        exact Or.inr ⟨rfl, by simp only [rightEdge]; omega, by simp only [rightEdge]; omega⟩
  have hle : 0 ≤ leftEdge a ∧ leftEdge a ≤ rightEdge b ∧ rightEdge b ≤ 159 ∧
      leftEdge a ≤ k ∧ k ≤ rightEdge b := by omega
  -- a copied centre is the start column, and that lies between the two edges
  have hmid : leftEdge a ≤ (edgeMid f i a b).val ∧ (edgeMid f i a b).val ≤ rightEdge b := by
    rcases hm with hhalf | ⟨hne, hcopy⟩ | ⟨hdefault, rfl, rfl⟩
    · rw [hhalf]
      exact half_between hle.1 hle.2.1
    · rw [hcopy, hbelow (by omega)]
      exact ⟨hle.2.2.2.1, hle.2.2.2.2⟩
    · rw [hdefault]
      simp [leftEdge, rightEdge]
  rw [clampColumn_of_mem (by omega) (by omega)]
  have hleft' : edgeFlag a = 0 ∧ leftEdge a = 0 ∨ edgeFlag a = 1 ∧ 2 ≤ leftEdge a := by omega
  have hright' : edgeFlag b = 0 ∧ rightEdge b = 159 ∨ edgeFlag b = 1 ∧ rightEdge b ≤ 157 := by
    omega
  have hlt : leftEdge a < rightEdge b := by omega
  exact ⟨hleft', hright', hmid.1, hmid.2, hlt⟩

/-! ## All rows -/

/-- Rows `i + 1` to 118 are ordered and the search of row `i` starts from the
centre of the row below it. -/
structure SearchInv (columnStart i : Int) (f₀ : Findline1) (st : Findline1 × Int) : Prop where
  ordered : ∀ j, i < j → j ≤ 118 → (st.1.row j).Ordered
  outside : ∀ j, j ≤ i ∨ 118 < j → st.1.row j = f₀.row j
  start : st.2 = if i < 118 then st.1.midline (i + 1) else columnStart
  start_mem : 0 ≤ st.2 ∧ st.2 ≤ 159

theorem findEdges_inv (img : Image) (f : Findline1) (columnStart : Int)
    (hlo : 0 ≤ columnStart) (hhi : columnStart ≤ 159) :
    SearchInv columnStart 10 f (findEdges img f columnStart).val := by
  unfold findEdges
  refine foldDown_rule (fun i st => SearchInv columnStart i f st) rfl
    ⟨fun j h₁ h₂ => absurd h₁ (by omega), fun j _ => rfl, by simp, hlo, hhi⟩ ?_
  rintro i ⟨g, k⟩ hilo hihi ⟨hord, hout, hstart, hmem⟩
  have hrow : (edgeRow img g i k).val.Ordered := by
    refine edgeRow_ordered img g i k hmem.1 hmem.2 (fun hlt => ?_) hihi
    simpa [hlt] using hstart.symm
  simp only [Logged.val_bind, storeRow_val, Logged.val_pure]
  refine ⟨?_, ?_, ?_, ?_⟩
  · intro j hj hj'
    rcases eq_or_ne j i with rfl | hne
    · simpa using hrow
    · rw [row_setRow_of_ne g hne]
      exact hord j (by omega) hj'
  · intro j hj
    rw [row_setRow_of_ne g (by omega)]
    exact hout j (by omega)
  · rw [if_pos (by omega), midline_eq_row, show i - 1 + 1 = i by ring, row_setRow_self]
  · have h₁ := hrow.left_le_mid
    have h₂ := hrow.mid_le_right
    rcases hrow.left_found with h | h <;> rcases hrow.right_found with h' | h' <;>
      constructor <;> simp only <;> omega

theorem findEdges_ordered (img : Image) (f : Findline1) (columnStart : Int)
    (hlo : 0 ≤ columnStart) (hhi : columnStart ≤ 159) {i : Int} (hi : 11 ≤ i) (hi' : i ≤ 118) :
    ((findEdges img f columnStart).val.1.row i).Ordered :=
  (findEdges_inv img f columnStart hlo hhi).ordered i (by omega) hi'

/-- Rows 0 to 10 and row 119 are left as they were. -/
theorem findEdges_outside (img : Image) (f : Findline1) (columnStart : Int) {i : Int}
    (hi : i ≤ 10 ∨ 118 < i) : (findEdges img f columnStart).val.1.row i = f.row i := by
  revert i
  unfold findEdges
  refine foldDown_keeps (fun st : Findline1 × Int => ∀ {j}, j ≤ 10 ∨ 118 < j → st.1.row j = f.row j)
    (fun _ => rfl) ?_
  intro j st hjlo hjhi hst l hl
  simp only [Logged.val_bind, storeRow_val, Logged.val_pure]
  rw [row_setRow_of_ne _ (by omega)]
  exact hst hl

/-! ## The far end -/

/-- `find_toppoint` only sets `toppoint` and its flag, to a row of its two
searches. -/
theorem findToppoint_val (img : Image) (f1 : Findline1) (f2 : Findline2) :
    ∃ found, (findToppoint img f1 f2).val = f2.setToppoint found ∧
      ∀ i, found = some i → 3 ≤ i ∧ i ≤ 118 := by
  have hedge := scanDown_spec 100 5 (toppointEdge img f1)
  have hout := scanDown_spec 118 2 (midlineOut f1)
  simp only [findToppoint, Logged.val_bind, Logged.val_ite, Logged.val_pure]
  generalize (scanDown 100 5 (toppointEdge img f1)).val = a at hedge ⊢
  generalize (scanDown 118 2 (midlineOut f1)).val = b at hout ⊢
  cases a with
  | some r =>
      refine ⟨some r, by simp [Findline2.setToppoint], ?_⟩
      rintro i ⟨⟩
      exact ⟨by have := hedge.1; omega, by have := hedge.2.1; omega⟩
  | none =>
      by_cases hflag : f2.toppointFlag = 0
      · refine ⟨b, by simp [Findline2.setToppoint, hflag], ?_⟩
        rintro i rfl
        exact ⟨by have := hout.1; omega, hout.2.1⟩
      · exact ⟨none, by simp [Findline2.setToppoint, hflag], by simp⟩

/-- With a centre column out of the middle on row 3 the second search cannot
fail. -/
theorem findToppoint_finds (img : Image) (f1 : Findline1) (f2 : Findline2)
    (hout : f1.midline 3 < 10 ∨ 150 < f1.midline 3) (hflag : f2.toppointFlag = 0) :
    ∃ i, (findToppoint img f1 f2).val = f2.setToppoint (some i) ∧ 3 ≤ i ∧ i ≤ 118 := by
  have hedge := scanDown_spec 100 5 (toppointEdge img f1)
  have hspec := scanDown_spec 118 2 (midlineOut f1)
  simp only [findToppoint, Logged.val_bind, Logged.val_ite, Logged.val_pure]
  generalize (scanDown 100 5 (toppointEdge img f1)).val = a at hedge ⊢
  generalize (scanDown 118 2 (midlineOut f1)).val = b at hspec ⊢
  cases a with
  | some r =>
      exact ⟨r, by simp [Findline2.setToppoint], by have := hedge.1; omega,
        by have := hedge.2.1; omega⟩
  | none =>
      cases b with
      | some r =>
          exact ⟨r, by simp [Findline2.setToppoint, hflag], by have := hspec.1; omega, hspec.2.1⟩
      | none =>
          have hthree := hspec 3 (by omega) (by omega)
          simp [midlineOut] at hthree
          omega

end SmartCar
