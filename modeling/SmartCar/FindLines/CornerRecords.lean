import SmartCar.FindLines.CornerTests
import SmartCar.FindLines.Midline
import SmartCar.FindLines.RingEvidence

/-!
# Corner records

A corner that `find_guai` records may be withdrawn by three judgements, with its
coordinates or without them. When the corner block ends, a side that still shows a
corner shows the nearest one of its test, on an edge that was found, and the corners
of the two sides are not crossed.
-/

namespace SmartCar

open Imperative Logged

/-! ## The corners that are flagged -/

/-- The flag of a side is down, or its corner is the outcome of the search. -/
def Flagged (found : Option Int) (edge : Int → Int) (flag row column : Int) : Prop :=
  flag = 0 ∨ flag = 1 ∧ row ∈ found ∧ column = edge row

/-- Each side is flagged for the corner that its search finds. -/
structure CornersFlagged (f1 : Findline1) (f2 : Findline2) : Prop where
  left : Flagged (leftGuaiScan f1 f2.toppoint) f1.leftline
    f2.leftguaiflag f2.leftguaiRow f2.leftguaiColumn
  right : Flagged (rightGuaiScan f1 f2.toppoint) f1.rightline
    f2.rightguaiflag f2.rightguaiRow f2.rightguaiColumn

/-- A side whose flag is down has no coordinates. -/
structure CornersDropped (f2 : Findline2) : Prop where
  left : f2.leftguaiflag = 0 → f2.leftguaiRow = 0 ∧ f2.leftguaiColumn = 0
  right : f2.rightguaiflag = 0 → f2.rightguaiRow = 0 ∧ f2.rightguaiColumn = 0

/-- Corners in different rows are not crossed. -/
def Uncrossed (f2 : Findline2) : Prop :=
  f2.leftguaiflag = 1 → f2.rightguaiflag = 1 → f2.leftguaiRow ≠ f2.rightguaiRow →
    f2.leftguaiColumn ≤ f2.rightguaiColumn

section Judge

variable (f1 : Findline1) {f2 : Findline2}

theorem cornersFlagged_kept : GuaiKept (CornersFlagged f1) where
  left := fun _ _ _ h => ⟨Or.inl rfl, h.right⟩
  right := fun _ _ _ h => ⟨h.left, Or.inl rfl⟩

theorem cornersFlagged_turnFree : TurnFree (CornersFlagged f1) :=
  fun _ _ _ _ _ h => ⟨h.left, h.right⟩

theorem cornersFlagged_shiziFree : ShiziFree (CornersFlagged f1) :=
  fun _ _ _ h => ⟨h.left, h.right⟩

theorem uncrossed_kept : GuaiKept Uncrossed where
  left := fun _ _ _ _ hflag => absurd hflag Int.zero_ne_one
  right := fun _ _ _ _ _ hflag => absurd hflag Int.zero_ne_one

/-- Of two crossed corners in different rows one is withdrawn. -/
theorem keepNearGuai_uncrossed (f2 : Findline2) : Uncrossed (keepNearGuai f2) := by
  unfold keepNearGuai
  refine iteInduction (fun _ => ?_) fun hnot hl hr => absurd ⟨hl, hr⟩ hnot
  extract_lets near
  have hnear : near.leftguaiRow > near.rightguaiRow ∧
      near.leftguaiColumn > near.rightguaiColumn → near.rightguaiflag = 0 :=
    iteInduction (motive := fun f2 : Findline2 => f2.leftguaiRow > f2.rightguaiRow ∧
      f2.leftguaiColumn > f2.rightguaiColumn → f2.rightguaiflag = 0)
      (fun _ _ => rfl) fun hnot h => absurd h hnot
  refine iteInduction (fun _ hl => absurd hl Int.zero_ne_one) fun hfar hl hr hrows => ?_
  by_contra hcrossed
  rcases lt_or_gt_of_ne hrows with hlt | hgt
  · exact hfar ⟨hlt, not_le.mp hcrossed⟩
  · have hoff := hnear ⟨hgt, not_le.mp hcrossed⟩
    omega

theorem dropGuai_dropped (f2 : Findline2) : CornersDropped (dropGuai f2) := by
  unfold dropGuai
  extract_lets left
  have hleft : left.leftguaiflag = 0 → left.leftguaiRow = 0 ∧ left.leftguaiColumn = 0 :=
    iteInduction (motive := fun f2 : Findline2 => f2.leftguaiflag = 0 →
      f2.leftguaiRow = 0 ∧ f2.leftguaiColumn = 0) (fun _ _ => ⟨rfl, rfl⟩)
      fun hflag hzero => absurd hzero hflag
  exact iteInduction (fun _ => ⟨hleft, fun _ => ⟨rfl, rfl⟩⟩)
    fun hflag => ⟨hleft, fun hzero => absurd hzero hflag⟩

theorem judgeGuai_corners (h : CornersFlagged f1 f2) :
    Returns (fun f2 => CornersFlagged f1 f2 ∧ Uncrossed f2) (judgeGuai f1 f2) := by
  have hkept : GuaiKept fun f2 => CornersFlagged f1 f2 ∧ Uncrossed f2 :=
    ⟨fun f2 row column h => ⟨(cornersFlagged_kept f1).left f2 row column h.1,
        uncrossed_kept.left f2 row column h.2⟩,
      fun f2 row column h => ⟨(cornersFlagged_kept f1).right f2 row column h.1,
        uncrossed_kept.right f2 row column h.2⟩⟩
  refine (shiziJudge_kept f1 (cornersFlagged_kept f1) h).bind fun f2 h => ?_
  exact bothRowLoseJudge_kept f1 hkept
    ⟨keepNearGuai_kept (cornersFlagged_kept f1) h, keepNearGuai_uncrossed f2⟩

/-- What holds of the corners when the corner block ends. -/
structure CornersJudged (f1 : Findline1) (f2 : Findline2) : Prop where
  flagged : CornersFlagged f1 f2
  dropped : CornersDropped f2
  uncrossed : Uncrossed f2

theorem cornersJudged_of_judge (h : CornersFlagged f1 f2 ∧ Uncrossed f2) :
    CornersJudged f1 (dropGuai (countShizi f2)) where
  flagged := dropGuai_kept (cornersFlagged_kept f1)
    (countShizi_keeps (cornersFlagged_turnFree f1) (cornersFlagged_shiziFree f1) h.1)
  dropped := dropGuai_dropped _
  uncrossed := dropGuai_kept uncrossed_kept
    (countShizi_keeps (fun _ _ _ _ _ h => h) (fun _ _ _ h => h) h.2)

theorem cornerBlock_judged {s : Lines} (hflagged : CornersFlagged s.f1 s.f2)
    (hdropped : CornersDropped s.f2) : CornersJudged s.f1 (cornerBlock s).val.f2 := by
  rw [cornerBlock, val_onlyIf]
  split
  next =>
    refine Returns.bind (Q := fun t : Lines => t.f1 = s.f1 ∧ t.f2 = s.f2)
      (S := fun t : Lines => CornersJudged s.f1 t.f2) (findHuan1_rest s) ?_
    rintro t ⟨hf1, hf2⟩
    rw [← hf1, ← hf2] at hflagged
    refine (judgeGuai_corners t.f1 hflagged).bind fun f2 h => Returns.pure ?_
    rw [← hf1]
    exact cornersJudged_of_judge t.f1 h
  next hnone => exact ⟨hflagged, hdropped, fun hl => absurd (Or.inl hl) hnone⟩

end Judge

/-! ## Frames -/

/-- The record of one side: either no corner, or the largest row that passes the test of
`find_guai`, on an edge that was found. -/
structure CornerRecord (test : Int → Bool) (edge found : Int → Int)
    (toppoint flag row column : Int) : Prop where
  known : flag = 0 ∨ flag = 1
  absent : flag = 0 → row = 0 ∧ column = 0
  rows : flag = 1 → 46 ≤ row ∧ row ≤ 108 ∧ toppoint + 4 < row
  edge : flag = 1 → found row = 1 ∧ column = edge row
  nearest : flag = 1 → IsGreatest {i | (toppoint + 4 < i ∧ i ≤ 108) ∧ test i = true} row

/-- The records of both sides on the edges of `f1`, which are not crossed. -/
structure CornersConsistent (f1 : Findline1) (f2 : Findline2) : Prop where
  left : CornerRecord (fun i => (leftGuaiAt f1 i).val) f1.leftline f1.leftlineflag f2.toppoint
    f2.leftguaiflag f2.leftguaiRow f2.leftguaiColumn
  right : CornerRecord (fun i => (rightGuaiAt f1 i).val) f1.rightline f1.rightlineflag f2.toppoint
    f2.rightguaiflag f2.rightguaiRow f2.rightguaiColumn
  uncrossed : f2.leftguaiflag = 1 → f2.rightguaiflag = 1 → f2.leftguaiColumn ≤ f2.rightguaiColumn

section Frames

variable {f1 : Findline1} {f2 : Findline2} {test : Int → Logged Access Bool}
  {edge found : Int → Int} {toppoint flag row column i : Int}

theorem Flagged.record
    (h : Flagged (scanDown 108 (toppoint + 4) test).val edge flag row column)
    (hdropped : flag = 0 → row = 0 ∧ column = 0)
    (htest : ∀ i, i ≤ 108 → (test i).val = true → 46 ≤ i ∧ found i = 1) :
    CornerRecord (fun i => (test i).val) edge found toppoint flag row column := by
  have hspec := scanDown_spec 108 (toppoint + 4) test
  rcases h with hzero | ⟨hone, hrow, hcolumn⟩
  · have hnot : flag ≠ 1 := by omega
    exact ⟨Or.inl hzero, hdropped, fun h => absurd h hnot, fun h => absurd h hnot,
      fun h => absurd h hnot⟩
  · rw [Option.mem_def.mp hrow] at hspec
    have hfound := htest row hspec.2.1 hspec.2.2.1
    exact ⟨Or.inr hone, hdropped, fun _ => ⟨hfound.1, hspec.2.1, hspec.1⟩,
      fun _ => ⟨hfound.2, hcolumn⟩, fun _ => firstDown_some_iff.mp hspec⟩

theorem leftGuaiAt_found (h : (leftGuaiAt f1 i).val = true) : 46 ≤ i ∧ f1.leftlineflag i = 1 := by
  simp only [leftGuaiAt, val_and, val_check, val_eq, val_ofNat, lflag_val, Bool.and_eq_true,
    decide_eq_true_eq] at h
  omega

/-- The right test does not ask whether the edge was found. Left of another edge it
was. -/
theorem rightGuaiAt_found (hordered : ∀ i, 11 ≤ i → i ≤ 118 → (f1.row i).Ordered) (hhi : i ≤ 108)
    (h : (rightGuaiAt f1 i).val = true) : 46 ≤ i ∧ f1.rightlineflag i = 1 := by
  simp only [rightGuaiAt, val_and, val_check, val_lt, right_val, Bool.and_eq_true,
    decide_eq_true_eq] at h
  have hrow : 45 < i := by omega
  have hhere : f1.rightlineflag i = 0 ∧ f1.rightline i = 159 ∨
      f1.rightlineflag i = 1 ∧ f1.rightline i ≤ 157 := (hordered i (by omega) (by omega)).right_found
  have hbelow : f1.rightlineflag (i + 3) = 0 ∧ f1.rightline (i + 3) = 159 ∨
      f1.rightlineflag (i + 3) = 1 ∧ f1.rightline (i + 3) ≤ 157 :=
    (hordered (i + 3) (by omega) (by omega)).right_found
  omega

theorem CornersJudged.consistent (h : CornersJudged f1 f2)
    (hordered : ∀ i, 11 ≤ i → i ≤ 118 → (f1.row i).Ordered) : CornersConsistent f1 f2 := by
  have hleft := h.flagged.left.record h.dropped.left fun i _ => leftGuaiAt_found
  have hright := h.flagged.right.record h.dropped.right fun i => rightGuaiAt_found hordered
  refine ⟨hleft, hright, fun hl hr => ?_⟩
  by_cases hrows : f2.leftguaiRow = f2.rightguaiRow
  · -- the arbitration does not look at corners in one row, where the edges are in order
    have hrange := hleft.rows hl
    have hedges : f1.leftline f2.leftguaiRow < f1.rightline f2.leftguaiRow :=
      (hordered f2.leftguaiRow (by omega) (by omega)).left_lt_right
    rw [(hleft.edge hl).2, (hright.edge hr).2, ← hrows]
    exact hedges.le
  · exact h.uncrossed hl hr hrows

theorem flagged_of_search (search : Option Int) (edge : Int → Int) :
    Flagged search edge (if search.isSome then 1 else 0) (search.getD 0) (search.elim 0 edge) := by
  cases search with
  | none => exact Or.inl rfl
  | some i => exact Or.inr ⟨rfl, rfl, rfl⟩

theorem dropped_of_search {search : Option Int} (edge : Int → Int)
    (h : (if search.isSome then 1 else 0 : Int) = 0) :
    search.getD 0 = 0 ∧ search.elim 0 edge = 0 := by
  cases search with
  | none => exact ⟨rfl, rfl⟩
  | some i => exact absurd h Int.one_ne_zero

variable (fr : Frame) (s : Lines)

theorem guaiOf_flagged : CornersFlagged s.f1 (guaiOf s) ∧ CornersDropped (guaiOf s) := by
  have hcleared : CornersCleared (clearFrame s).f2 := ⟨rfl, rfl, rfl, rfl, rfl, rfl⟩
  rw [guaiOf, findGuai_val hcleared]
  split
  next => exact ⟨⟨flagged_of_search _ _, flagged_of_search _ _⟩,
    ⟨dropped_of_search s.f1.leftline, dropped_of_search s.f1.rightline⟩⟩
  next => exact ⟨⟨Or.inl rfl, Or.inl rfl⟩, ⟨fun _ => ⟨rfl, rfl⟩, fun _ => ⟨rfl, rfl⟩⟩⟩

theorem cornerBlock_consistent (hordered : ∀ i, 11 ≤ i → i ≤ 118 → (s.f1.row i).Ordered) :
    CornersConsistent s.f1 (cornerBlock (cornersOf fr s).val).val.f2 := by
  have hf1 : (cornersOf fr s).val.f1 = s.f1 := rfl
  have hflagged : CornersFlagged s.f1 (cornersOf fr s).val.f2 :=
    cornersOf_keeps fr (cornersFlagged_turnFree s.f1) (guaiOf_flagged s).1
  have hdropped : CornersDropped (cornersOf fr s).val.f2 :=
    cornersOf_keeps fr (fun _ _ _ _ _ h => ⟨h.left, h.right⟩) (guaiOf_flagged s).2
  rw [← hf1] at hflagged hordered ⊢
  exact (cornerBlock_judged hflagged hdropped).consistent hordered

/-- In every frame of every run the records of both corners are consistent when
`findline2` leaves the corner block. -/
theorem corners_consistent (frames : List Frame) (fr : Frame) :
    CornersConsistent (findline1 fr (afterFrames frames)).val.f1
      (cornerBlock (cornersOf fr (findline1 fr (afterFrames frames)).val).val).val.f2 := by
  have hstart := afterFrames_columnStart frames
  refine cornerBlock_consistent fr _ fun i hlo hhi => ?_
  rw [findline1_f1]
  exact findEdges_ordered fr.image _ _ (by omega) (by omega) hlo hhi

end Frames

end SmartCar
