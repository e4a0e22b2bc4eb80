import SmartCar.FindLines.CleanRoad

/-!
# What `findline1` takes over from earlier frames

The edges of rows 118 to 11 depend on the image and the start column only. The
search for the far end also reads the centre line of rows 10 to 3, which
`findline1` never writes; it ends on one of them when no edge shows on the
rows before, and then its outcome depends on what earlier frames left there.
-/

namespace SmartCar

open Imperative Logged

/-! ## The edge search -/

section Edges

variable {img : Image} {f g : Findline1} {i : Int}

/-- The rows above `i`, up to 118, are the same. -/
def SameRows (i : Int) (f g : Findline1) : Prop := ∀ j, i < j → j ≤ 118 → f.row j = g.row j

/-- Row `i` reads the row below it and, fifteen rows nearer, the flags of a row
that has been searched as well. -/
theorem edgeMid_congr (h : SameRows i f g) (hi : i ≤ 118) (a b : Option Int) :
    (edgeMid f i a b).val = (edgeMid g i a b).val := by
  have hbelow : i ≠ 118 → f.row (i + 1) = g.row (i + 1) := fun _ => h _ (by omega) (by omega)
  have hback : i < 99 → f.row (i + 15) = g.row (i + 15) := fun _ => h _ (by omega) (by omega)
  simp only [Findline1.row, EdgeRow.mk.injEq] at hbelow hback
  cases a with
  | some j =>
      cases b with
      | some j' => rfl
      | none =>
          simp only [edgeMid, val_bind, val_ite, val_and, val_check, val_ge, val_eq, left_val,
            lflag_val, rflag_val, mid_val, val_pure, val_ofNat]
          by_cases hrow : i < 99
          · obtain ⟨h₁, h₂, -⟩ := hbelow (by omega)
            obtain ⟨-, -, -, h₃, h₄⟩ := hback hrow
            rw [h₁, h₂, h₃, h₄]
          · simp [hrow]
  | none =>
      cases b with
      | some j' =>
          simp only [edgeMid, val_bind, val_ite, val_and, val_check, val_le, val_eq, right_val,
            lflag_val, rflag_val, mid_val, val_pure, val_ofNat]
          by_cases hrow : i < 99
          · obtain ⟨-, h₁, h₂, -⟩ := hbelow (by omega)
            obtain ⟨-, -, -, h₃, h₄⟩ := hback hrow
            rw [h₁, h₂, h₃, h₄]
          · simp [hrow]
      | none =>
          simp only [edgeMid, val_ite, val_pure, mid_val]
          split
          next => rfl
          next hne => exact (hbelow hne).2.1

theorem edgeRow_congr (h : SameRows i f g) (hi : i ≤ 118) (k : Int) :
    (edgeRow img f i k).val = (edgeRow img g i k).val := by
  simp only [edgeRow, val_bind, edgeMid_congr h hi]

/-- The rows that are searched do not depend on the arrays before the search. -/
theorem findEdges_congr (img : Image) (f g : Findline1) (k : Int) :
    SameRows 10 (findEdges img f k).val.1 (findEdges img g k).val.1 := by
  have hnone : SameRows 118 f g := fun j h₁ h₂ => absurd h₁ (by omega)
  suffices hrel : (findEdges img f k).val.2 = (findEdges img g k).val.2 ∧
      SameRows 10 (findEdges img f k).val.1 (findEdges img g k).val.1 from hrel.2
  unfold findEdges
  refine foldDown_rel (fun i (s t : Findline1 × Int) => s.2 = t.2 ∧ SameRows i s.1 t.1) rfl
    ⟨rfl, hnone⟩ ?_
  rintro i ⟨f, k⟩ ⟨g, k'⟩ hlo hhi ⟨rfl, hsame⟩
  have hrow : (edgeRow img f i k).val = (edgeRow img g i k).val := edgeRow_congr hsame hhi k
  simp only [val_bind, storeRow_val, val_pure, hrow, true_and]
  intro j hj hj'
  rcases eq_or_ne j i with rfl | hne
  · simp
  · rw [row_setRow_of_ne f hne, row_setRow_of_ne g hne]
    exact hsame j (by omega) hj'

end Edges

/-! ## The far end -/

section FarEnd

variable (img : Image) (k : Int) (f : Findline1)

/-- The arrays after a search from start column `k`. -/
def freshEdges : Findline1 := (findEdges img Lines.init.f1 k).val.1

/-- The first row of 100 to 11 with an edge across the centre line. -/
def freshEdgeRow : Option Int := (scanDown 100 10 (toppointEdge img (freshEdges img k))).val

/-- The first row of 118 to 11 whose centre line has left the middle. -/
def freshOutRow : Option Int := (scanDown 118 10 (midlineOut (freshEdges img k))).val

/-- The first row of 10 to 6 with an edge across the left-over centre line. -/
def leftoverEdgeRow : Option Int := (scanDown 10 5 (toppointEdge img f)).val

/-- The first row of 10 to 3 whose left-over centre line has left the middle. -/
def leftoverOutRow : Option Int := (scanDown 10 2 (midlineOut f)).val

/-- The left-over row on which the search ends if it gets to rows 10 to 3; rows
that have merely left the middle only count when none of rows 118 to 11 has. -/
def leftoverRow : Option Int :=
  (leftoverEdgeRow img f).or (if (freshOutRow img k).isSome then none else leftoverOutRow f)

/-- The row that `find_toppoint` finds from a cleared flag. -/
def toppointRow : Option Int :=
  (scanDown 100 5 (toppointEdge img f)).val.or (scanDown 118 2 (midlineOut f)).val

theorem findToppoint_row {f2 : Findline2} (hflag : f2.toppointFlag = 0) :
    (findToppoint img f f2).val = f2.setToppoint (toppointRow img f) := by
  simp only [findToppoint, toppointRow, val_bind, val_ite, val_pure]
  cases (scanDown 100 5 (toppointEdge img f)).val with
  | some r => simp [Findline2.setToppoint]
  | none => simp [Findline2.setToppoint, hflag]

theorem toppointEdge_congr {f g : Findline1} {i : Int} (h : f.midline i = g.midline i) :
    (toppointEdge img f i).val = (toppointEdge img g i).val := by
  simp only [toppointEdge, val_bind, mid_val, h]

theorem midlineOut_congr {f g : Findline1} {i : Int} (h : f.midline i = g.midline i) :
    (midlineOut f i).val = (midlineOut g i).val := by
  simp [midlineOut, h]

theorem findEdges_fresh {i : Int} (hlo : 10 < i) (hhi : i ≤ 118) :
    (findEdges img f k).val.1.midline i = (freshEdges img k).midline i :=
  congrArg EdgeRow.midline (findEdges_congr img f Lines.init.f1 k i hlo hhi)

theorem findEdges_leftover {i : Int} (hhi : i ≤ 10) :
    (findEdges img f k).val.1.midline i = f.midline i :=
  congrArg EdgeRow.midline (findEdges_outside img f k (Or.inl hhi))

/-- The search for the far end reads fresh rows first, then left-over ones, in
both of its passes. -/
theorem toppointRow_findEdges : toppointRow img (findEdges img f k).val.1 =
    (freshEdgeRow img k).or ((leftoverEdgeRow img f).or
      ((freshOutRow img k).or (leftoverOutRow f))) := by
  have hfresh : (scanDown 100 10 (toppointEdge img (findEdges img f k).val.1)).val =
      freshEdgeRow img k := scanDown_congr fun i hlo hhi =>
    toppointEdge_congr img (findEdges_fresh img k f hlo (by omega))
  have hleft : (scanDown 10 5 (toppointEdge img (findEdges img f k).val.1)).val =
      leftoverEdgeRow img f := scanDown_congr fun i hlo hhi =>
    toppointEdge_congr img (findEdges_leftover img k f hhi)
  have hout : (scanDown 118 10 (midlineOut (findEdges img f k).val.1)).val =
      freshOutRow img k := scanDown_congr fun i hlo hhi =>
    midlineOut_congr (findEdges_fresh img k f hlo hhi)
  have houtLeft : (scanDown 10 2 (midlineOut (findEdges img f k).val.1)).val =
      leftoverOutRow f := scanDown_congr fun i hlo hhi =>
    midlineOut_congr (findEdges_leftover img k f hhi)
  rw [toppointRow, scanDown_split (m := 10) (by omega) (by omega),
    scanDown_split (m := 10) (by omega) (show (10 : Int) ≤ 118 by omega), hfresh, hleft, hout, houtLeft,
    Option.or_assoc]

/-- Where the rows of `a` and `b` are farther than those of `c`, a common `c`
after them only matters by being there. -/
theorem or_eq_or_iff {a b c d e : Option Int} {r : Int} (ha : ∀ i, a = some i → i ≤ r)
    (hb : ∀ i, b = some i → i ≤ r) (hc : ∀ i, c = some i → r < i) :
    a.or (c.or d) = b.or (c.or e) ↔
      a.or (if c.isSome then none else d) = b.or (if c.isSome then none else e) := by
  cases c with
  | none => simp
  | some j =>
      have hj := hc j rfl
      cases a with
      | some i =>
          have hi := ha i rfl
          cases b <;> simp
          omega
      | none =>
          cases b with
          | some i =>
              have hi := hb i rfl
              simp
              omega
          | none => simp

theorem leftoverEdgeRow_le (i : Int) (h : leftoverEdgeRow img f = some i) : i ≤ 10 :=
  (scanDown_mem h).2.1

theorem lt_freshOutRow (i : Int) (h : freshOutRow img k = some i) : 10 < i := (scanDown_mem h).1

end FarEnd

/-! ## Two runs -/

section Runs

variable {fr : Frame} {s t : Lines}

@[simp] theorem setToppoint_toppoint (f2 : Findline2) (o : Option Int) :
    (f2.setToppoint o).toppoint = o.getD f2.toppoint := by
  cases o <;> rfl

@[simp] theorem setToppoint_toppointFlag (f2 : Findline2) (o : Option Int) :
    (f2.setToppoint o).toppointFlag = if o.isSome then 1 else f2.toppointFlag := by
  cases o <;> rfl

/-- The same edges, flags and centre line on the rows that are searched, and the
same far end. -/
structure SameResult (s t : Lines) : Prop where
  rows : SameRows 10 s.f1 t.f1
  toppoint : s.f2.toppoint = t.f2.toppoint
  flag : s.f2.toppointFlag = t.f2.toppointFlag

/-- The row on which `findline1` sees the far end. -/
def farRow (fr : Frame) (s : Lines) : Option Int :=
  toppointRow fr.image (findEdges fr.image s.f1 s.columnStart).val.1

theorem findline1_val (fr : Frame) (s : Lines) :
    (findline1 fr s).val.f1 = (findEdges fr.image s.f1 s.columnStart).val.1 ∧
    (findline1 fr s).val.f2 =
      { s.f2 with toppoint := 0, toppointFlag := 0 }.setToppoint (farRow fr s) := by
  simp only [findline1, findline1Rows, val_bind, if_true, val_pure]
  exact ⟨trivial, findToppoint_row fr.image _ rfl⟩

theorem sameResult_iff (h : s.columnStart = t.columnStart) :
    SameResult (findline1 fr s).val (findline1 fr t).val ↔ farRow fr s = farRow fr t := by
  obtain ⟨hs₁, hs₂⟩ := findline1_val fr s
  obtain ⟨ht₁, ht₂⟩ := findline1_val fr t
  constructor
  · rintro ⟨-, htop, hflag⟩
    rw [hs₂, ht₂] at htop hflag
    cases hs : farRow fr s <;> cases ht : farRow fr t <;> simp_all
  · intro hrow
    refine ⟨?_, by rw [hs₂, ht₂, hrow]; simp, by rw [hs₂, ht₂, hrow]; simp⟩
    rw [hs₁, ht₁, h]
    exact findEdges_congr fr.image s.f1 t.f1 t.columnStart

/-- Two states with the same start column give the same result exactly when an
edge shows on a row that the frame has searched, or the rows left over from
earlier frames end the search alike. -/
theorem findline1_sameResult_iff (h : s.columnStart = t.columnStart) :
    SameResult (findline1 fr s).val (findline1 fr t).val ↔
      (freshEdgeRow fr.image s.columnStart).isSome ∨
        leftoverRow fr.image s.columnStart s.f1 = leftoverRow fr.image s.columnStart t.f1 := by
  rw [sameResult_iff h, farRow, farRow, ← h, toppointRow_findEdges, toppointRow_findEdges]
  have hleft := or_eq_or_iff (d := leftoverOutRow s.f1) (e := leftoverOutRow t.f1)
    (leftoverEdgeRow_le fr.image s.f1) (leftoverEdgeRow_le fr.image t.f1)
    (lt_freshOutRow fr.image s.columnStart)
  cases freshEdgeRow fr.image s.columnStart with
  | some r => simp
  | none => simpa [leftoverRow] using hleft

/-- A road that bends off to the right. -/
def rightBendRoad : List (Int × Int × Int) := [(60, 30, 130), (21, 30, 159)]

/-- An image that is white but for one black pixel in the far left corner. -/
def openRoad : List (Int × Int × Int) := [(5, 0, 159), (4, 1, 159), (0, 0, 159)]

theorem rightBend_columnStart : (afterFrames ([rightBendRoad].map bandFrame)).columnStart = 80 := by
  rw [afterFrames_band]
  decide +kernel

/-- The open road at the start of a run and after the bend. -/
theorem openRoad_sameResult_iff :
    SameResult (findline1 (bandFrame openRoad) Lines.init).val
        (findline1 (bandFrame openRoad) (afterFrames ([rightBendRoad].map bandFrame))).val ↔
      (freshEdgeRow (bandFrame openRoad).image 80).isSome ∨
        leftoverRow (bandFrame openRoad).image 80 Lines.init.f1 =
          leftoverRow (bandFrame openRoad).image 80
            (afterFrames ([rightBendRoad].map bandFrame)).f1 :=
  findline1_sameResult_iff (s := Lines.init) rightBend_columnStart.symm

/-- Its far end is seen on different rows in the two runs. -/
theorem farEnd_depends_on_history :
    ¬ ∀ fr s t, Reachable s → Reachable t → s.columnStart = t.columnStart →
      0 ≤ s.columnStart → s.columnStart ≤ 159 →
      SameResult (findline1 fr s).val (findline1 fr t).val := by
  intro hclaim
  have htop := (hclaim (bandFrame openRoad) Lines.init _ ⟨[], rfl⟩ ⟨_, rfl⟩
    rightBend_columnStart.symm (by decide) (by decide)).toppoint
  rw [afterFrames_band, findline1_band, findline1_band] at htop
  have hvalues : (bandFindline1 openRoad Lines.init).f2.toppoint = 9 ∧
      (bandFindline1 openRoad (run bandStep Lines.init [rightBendRoad])).f2.toppoint = 10 := by
    decide +kernel
  rw [hvalues.1, hvalues.2] at htop
  exact absurd htop (by decide)

end Runs

end SmartCar
