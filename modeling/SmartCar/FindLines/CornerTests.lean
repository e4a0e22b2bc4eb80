import SmartCar.FindLines.Mirror
import SmartCar.FindLines.RingStages

/-!
# The two tests of `find_guai`

The left test of `find_guai` makes comparisons that the right one lacks, and the two
ask for different slopes. Both are stated on the distance of an edge from its own
border, so that they can be compared, and `find_guai` is read as the two searches
for them.
-/

namespace SmartCar

open Imperative Logged

/-! ## The tests -/

section Tests

variable {f1 : Findline1} {e flag : Int → Int} {i toppoint : Int}

/-- What both tests of `find_guai` ask of row `i`, where `e` is the distance of the
edge from its own border: a peak, with the edge lost farther on. -/
def CornerAt (e flag : Int → Int) (i : Int) : Prop :=
  45 < i ∧ e (i + 3) < e i ∧ e (i - 3) < e i ∧ e (i + 5) < e i ∧ flag (i + 3) = 1 ∧
    flag (i - 5) = 0 ∧ 4 < 2 * e i - e (i - 3) - e (i + 3)

/-- What only the test of the left side asks. -/
def LeftAsks (e : Int → Int) (i : Int) : Prop :=
  e (i - 2) < e i ∧ e (i - 4) < e i ∧ e (i - 3) - e (i + 3) < 2

/-- What only the test of the right side asks. -/
def RightAsks (e : Int → Int) (i : Int) : Prop := e (i - 3) - e (i + 3) < -2

/-- The left test sees a corner on a side. -/
def LeftSees (e flag : Int → Int) (toppoint : Int) : Prop :=
  ∃ i, toppoint + 4 < i ∧ i ≤ 108 ∧ CornerAt e flag i ∧ LeftAsks e i

def RightSees (e flag : Int → Int) (toppoint : Int) : Prop :=
  ∃ i, toppoint + 4 < i ∧ i ≤ 108 ∧ CornerAt e flag i ∧ RightAsks e i

/-- The edges show the opening of a ring on the side whose edge is lost. -/
structure RingOpens (flag other : Int → Int) (toppoint : Int) : Prop where
  opposite : ∀ i, toppoint < i → i ≤ 95 → other i ≠ 0
  opening : 3 ≤ countRows (fun i => flag i = 0 ∧ other i ≠ 0 ∧ other (i + 8) ≠ 0 ∧
    flag (i + 4) = 1) toppoint 95

/-- The tests tell no side from its mirror image, where `e'` and `flag'` belong to the
opposite side: behind the last row at which the opposite edge is lost, a row at which
one of them sees a corner lies beyond a row at which both do, and where a ring opens
they agree on whether this side alone shows a corner. -/
structure SideAgrees (e flag e' flag' : Int → Int) (toppoint : Int) : Prop where
  corner : ∀ i, toppoint + 4 < i → i ≤ 108 → (∃ k, toppoint < k ∧ k ≤ i ∧ flag' k = 0) →
    CornerAt e flag i → ¬ (LeftAsks e i ↔ RightAsks e i) →
      ∃ j, i < j ∧ j ≤ 108 ∧ CornerAt e flag j ∧ LeftAsks e j ∧ RightAsks e j
  ring : RingOpens flag flag' toppoint →
    (LeftSees e flag toppoint ∧ ¬ RightSees e' flag' toppoint ↔
      RightSees e flag toppoint ∧ ¬ LeftSees e' flag' toppoint)

/-- The distance of the right edge from the right border. -/
def rightInset (f1 : Findline1) (i : Int) : Int := 159 - f1.rightline i

/-- Found edges lie in columns 25 to 134, lost ones on their border. -/
structure EdgesInside (f1 : Findline1) : Prop where
  left : ∀ i, 0 ≤ i → i ≤ 119 →
    f1.leftlineflag i = 1 ∧ 25 ≤ f1.leftline i ∧ f1.leftline i ≤ 134 ∨
      f1.leftlineflag i = 0 ∧ f1.leftline i = 0
  right : ∀ i, 0 ≤ i → i ≤ 119 →
    f1.rightlineflag i = 1 ∧ 25 ≤ f1.rightline i ∧ f1.rightline i ≤ 134 ∨
      f1.rightlineflag i = 0 ∧ f1.rightline i = 159

theorem EdgesInside.mirror (h : EdgesInside f1) : EdgesInside f1.mirror where
  left := by
    intro i hlo hhi
    have hright := h.right i hlo hhi
    simp only [mirror_leftline, mirror_leftlineflag]
    omega
  right := by
    intro i hlo hhi
    have hleft := h.left i hlo hhi
    simp only [mirror_rightline, mirror_rightlineflag]
    omega

/-- A peak over a found edge is itself found. -/
theorem CornerAt.inside (h : EdgesInside f1) (hhi : i ≤ 108)
    (hcorner : CornerAt f1.leftline f1.leftlineflag i) :
    f1.leftlineflag i = 1 ∧ 25 ≤ f1.leftline i ∧ f1.leftline i ≤ 134 := by
  obtain ⟨hlo, hpeak, -, -, hfound, -⟩ := hcorner
  have hhere := h.left i (by omega) (by omega)
  have hbelow := h.left (i + 3) (by omega) (by omega)
  omega

theorem leftGuaiAt_iff (h : EdgesInside f1) (hhi : i ≤ 108) : (leftGuaiAt f1 i).val = true ↔
    CornerAt f1.leftline f1.leftlineflag i ∧ LeftAsks f1.leftline i := by
  have hinside := CornerAt.inside (i := i) h hhi
  simp only [leftGuaiAt, CornerAt, LeftAsks, val_and, val_check, val_lt, val_gt, val_eq, val_sub,
    val_mul, val_ofNat, left_val, lflag_val, Bool.and_eq_true, decide_eq_true_eq] at hinside ⊢
  constructor
  · intro hall
    omega
  · rintro ⟨hcorner, hasks⟩
    have hthis := hinside hcorner
    omega

theorem rightGuaiAt_iff (h : EdgesInside f1) (hhi : i ≤ 108) : (rightGuaiAt f1 i).val = true ↔
    CornerAt (rightInset f1) f1.rightlineflag i ∧ RightAsks (rightInset f1) i := by
  have hinside := CornerAt.inside (i := i) h.mirror hhi
  simp only [rightGuaiAt, CornerAt, RightAsks, rightInset, val_and, val_check, val_lt, val_gt,
    val_eq, val_sub, val_add, val_mul, val_ofNat, right_val, rflag_val, Bool.and_eq_true,
    decide_eq_true_eq, mirror_leftline, mirror_leftlineflag] at hinside ⊢
  constructor
  · intro hall
    omega
  · rintro ⟨hcorner, hasks⟩
    have hthis := hinside hcorner
    omega

end Tests

/-! ## The outcomes of `find_guai` -/

section Outcomes

variable {f1 : Findline1} {f2 : Findline2} {s : Lines} {l r : Option Int}

/-- The corners of `f2` are those at the rows `l` and `r`. -/
def recordCorners (f1 : Findline1) (f2 : Findline2) (l r : Option Int) : Findline2 :=
  { f2 with
    leftguaiflag := if l.isSome then 1 else 0
    leftguaiRow := l.getD 0
    leftguaiColumn := l.elim 0 f1.leftline
    rightguaiflag := if r.isSome then 1 else 0
    rightguaiRow := r.getD 0
    rightguaiColumn := r.elim 0 f1.rightline }

def Lines.withCorners (s : Lines) (l r : Option Int) : Lines :=
  { s with f2 := recordCorners s.f1 s.f2 l r }

/-- The rows hold found edges. -/
structure RowsInside (f1 : Findline1) (l r : Option Int) : Prop where
  left : ∀ i ∈ l, i ≠ 0 ∧ 25 ≤ f1.leftline i ∧ f1.leftline i ≤ 134
  right : ∀ i ∈ r, i ≠ 0 ∧ 25 ≤ f1.rightline i ∧ f1.rightline i ≤ 134

theorem RowsInside.mirror (h : RowsInside f1 l r) : RowsInside f1.mirror r l where
  left := by
    intro i hi
    have hright := h.right i hi
    simp only [mirror_leftline]
    omega
  right := by
    intro i hi
    have hleft := h.left i hi
    simp only [mirror_rightline]
    omega

theorem RowsInside.corners (h : RowsInside f1 l r) : CornersInside (recordCorners f1 f2 l r) where
  left := by
    intro hflag
    cases l with
    | none => exact absurd hflag (by simp [recordCorners])
    | some i => exact h.left i rfl
  right := by
    intro hflag
    cases r with
    | none => exact absurd hflag (by simp [recordCorners])
    | some i => exact h.right i rfl

theorem withCorners_mirror (h : RowsInside s.f1 l r) :
    (s.withCorners l r).mirror = s.mirror.withCorners r l := by
  have hleft : mirrorColumn (r.getD 0) (r.elim 0 s.f1.rightline) =
      r.elim 0 s.f1.mirror.leftline := by
    cases r with
    | none => rfl
    | some i => exact if_neg (h.right i rfl).1
  have hright : mirrorColumn (l.getD 0) (l.elim 0 s.f1.leftline) =
      l.elim 0 s.f1.mirror.rightline := by
    cases l with
    | none => rfl
    | some i => exact if_neg (h.left i rfl).1
  simp only [Lines.withCorners, recordCorners, Lines.mirror, Findline2.mirror, hleft, hright]

/-- `findline2` has cleared the corners. -/
structure CornersCleared (f2 : Findline2) : Prop where
  leftflag : f2.leftguaiflag = 0
  leftrow : f2.leftguaiRow = 0
  leftcolumn : f2.leftguaiColumn = 0
  rightflag : f2.rightguaiflag = 0
  rightrow : f2.rightguaiRow = 0
  rightcolumn : f2.rightguaiColumn = 0

theorem CornersCleared.mirror (h : CornersCleared f2) : CornersCleared f2.mirror where
  leftflag := h.rightflag
  leftrow := h.rightrow
  leftcolumn := (if_pos h.rightrow).trans h.rightcolumn
  rightflag := h.leftflag
  rightrow := h.leftrow
  rightcolumn := (if_pos h.leftrow).trans h.leftcolumn

theorem CornersCleared.eq_record (h : CornersCleared f2) : f2 = recordCorners f1 f2 none none := by
  obtain ⟨hlf, hlr, hlc, hrf, hrr, hrc⟩ := h
  cases f2
  simp_all [recordCorners]

def leftGuaiScan (f1 : Findline1) (toppoint : Int) : Option Int :=
  (scanDown 108 (toppoint + 4) (leftGuaiAt f1)).val

def rightGuaiScan (f1 : Findline1) (toppoint : Int) : Option Int :=
  (scanDown 108 (toppoint + 4) (rightGuaiAt f1)).val

theorem findGuai_val (h : CornersCleared f2) : (findGuai f1 f2).val =
    if f2.toppoint < 70 ∧ f2.toppoint > 5 then
      recordCorners f1 f2 (leftGuaiScan f1 f2.toppoint) (rightGuaiScan f1 f2.toppoint)
    else f2 := by
  have hleft : (onlyIf (f2.leftguaiflag = 0) (findLeftguai f1) f2).val =
      recordCorners f1 f2 (leftGuaiScan f1 f2.toppoint) none := by
    rw [val_onlyIf, if_pos h.leftflag, findLeftguai, val_bind, leftGuaiScan]
    cases (scanDown 108 (f2.toppoint + 4) (leftGuaiAt f1)).val with
    | none => exact h.eq_record
    | some i => simp [recordCorners, h.rightflag, h.rightrow, h.rightcolumn]
  have hright : ∀ l, (onlyIf ((recordCorners f1 f2 l none).rightguaiflag = 0) (findRightguai f1)
      (recordCorners f1 f2 l none)).val = recordCorners f1 f2 l (rightGuaiScan f1 f2.toppoint) := by
    intro l
    have hflag : (recordCorners f1 f2 l none).rightguaiflag = 0 := rfl
    have htop : (recordCorners f1 f2 l none).toppoint = f2.toppoint := rfl
    rw [val_onlyIf, if_pos hflag, findRightguai, val_bind, htop, rightGuaiScan]
    cases (scanDown 108 (f2.toppoint + 4) (rightGuaiAt f1)).val with
    | none => rfl
    | some i => rfl
  rw [findGuai, val_onlyIf]
  split
  next => rw [val_bind, hleft, hright]
  next => rfl

end Outcomes

end SmartCar
