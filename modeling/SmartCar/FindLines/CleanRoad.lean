import SmartCar.FindLines.EdgeLaws
import SmartCar.FindLines.Findline2

/-!
# `findline1` on a clean road

On a row that is white on one interval of columns the two searches find exactly
the borders of the interval, from any start column: its ends where they lie
inside the image and the start column is on the near side of them, nothing
otherwise. On a road drawn in bands `findline1` can therefore be computed
without looking at single pixels.
-/

namespace SmartCar

open Imperative Logged

/-- Row `i` is white on the columns `a` to `b` and black elsewhere. -/
def WhiteOn (img : Image) (i a b : Int) : Prop := ∀ j, (img i j != 0) = decide (a ≤ j ∧ j ≤ b)

section Row

variable {img : Image} {i a b : Int}

theorem leftJump_of_whiteOn (h : WhiteOn img i a b) (j : Int) :
    (leftJump img i j).val = true ↔ j = a + 1 ∧ a + 1 ≤ b := by
  have hblack : ∀ j, (img i j == 0) = !(img i j != 0) := fun j => by simp [bne]
  simp only [leftJump, val_and, white_val, black_val, hblack, h j, h (j - 1), h (j - 2)]
  simp
  omega

theorem rightJump_of_whiteOn (h : WhiteOn img i a b) (j : Int) :
    (rightJump img i j).val = true ↔ j = b - 1 ∧ a + 1 ≤ b := by
  have hblack : ∀ j, (img i j == 0) = !(img i j != 0) := fun j => by simp [bne]
  simp only [rightJump, val_and, white_val, black_val, hblack, h j, h (j + 1), h (j + 2)]
  simp
  omega

/-- The left search stops one column inside the left border `a`. -/
def cleanLeft (a b k : Int) : Option Int :=
  if 2 ≤ a ∧ a + 1 ≤ b ∧ a + 1 ≤ k then some (a + 1) else none

/-- The right search stops one column inside the right border `b`. -/
def cleanRight (a b k : Int) : Option Int :=
  if b ≤ 157 ∧ a + 1 ≤ b ∧ k ≤ b - 1 then some (b - 1) else none

theorem leftSearch_of_whiteOn (h : WhiteOn img i a b) (k : Int) :
    (scanDown k 2 (leftJump img i)).val = cleanLeft a b k := by
  have hspec := scanDown_spec k 2 (leftJump img i)
  unfold cleanLeft
  cases hfound : (scanDown k 2 (leftJump img i)).val with
  | none =>
      rw [hfound] at hspec
      rw [if_neg]
      rintro ⟨h₁, h₂, h₃⟩
      have hmiss := hspec (a + 1) (by omega) h₃
      simp [(leftJump_of_whiteOn h (a + 1)).mpr ⟨rfl, h₂⟩] at hmiss
  | some j =>
      rw [hfound] at hspec
      obtain ⟨hlo, hhi, hj, -⟩ := hspec
      obtain ⟨rfl, hab⟩ := (leftJump_of_whiteOn h j).mp hj
      rw [if_pos ⟨by omega, hab, hhi⟩]

theorem rightSearch_of_whiteOn (h : WhiteOn img i a b) (k : Int) :
    (scanUp k 157 (rightJump img i)).val = cleanRight a b k := by
  have hspec := scanUp_spec k 157 (rightJump img i)
  unfold cleanRight
  cases hfound : (scanUp k 157 (rightJump img i)).val with
  | none =>
      rw [hfound] at hspec
      rw [if_neg]
      rintro ⟨h₁, h₂, h₃⟩
      have hmiss := hspec (b - 1) h₃ (by omega)
      simp [(rightJump_of_whiteOn h (b - 1)).mpr ⟨rfl, h₂⟩] at hmiss
  | some j =>
      rw [hfound] at hspec
      obtain ⟨hlo, hhi, hj, -⟩ := hspec
      obtain ⟨rfl, hab⟩ := (rightJump_of_whiteOn h j).mp hj
      rw [if_pos ⟨by omega, hab, hlo⟩]

end Row

/-! ## Roads drawn in bands -/

/-- A road given by horizontal bands `(r, a, b)`: from row `r` towards the car,
up to the band before, the columns `a` to `b` are white. -/
def bandAt (bands : List (Int × Int × Int)) (i : Int) : Int × Int :=
  match bands with
  | [] => (1, 0)
  | (r, a, b) :: bands => if r ≤ i then (a, b) else bandAt bands i

def bandImage (bands : List (Int × Int × Int)) : Image := fun i j =>
  if (bandAt bands i).1 ≤ j ∧ j ≤ (bandAt bands i).2 then 1 else 0

theorem bandImage_whiteOn (bands : List (Int × Int × Int)) (i : Int) :
    WhiteOn (bandImage bands) i (bandAt bands i).1 (bandAt bands i).2 := by
  intro j
  by_cases hin : (bandAt bands i).1 ≤ j ∧ j ≤ (bandAt bands i).2 <;> simp [bandImage, hin]

/-- `edgeRow` with the searches read off the band. -/
def bandRow (bands : List (Int × Int × Int)) (f : Findline1) (i k : Int) :
    Logged Access EdgeRow := do
  let (a, b) := bandAt bands i
  let m ← edgeMid f i (cleanLeft a b k) (cleanRight a b k)
  return ⟨leftEdge (cleanLeft a b k), clampColumn m, rightEdge (cleanRight a b k),
    edgeFlag (cleanLeft a b k), edgeFlag (cleanRight a b k)⟩

theorem edgeRow_band (bands : List (Int × Int × Int)) (f : Findline1) (i k : Int) :
    (edgeRow (bandImage bands) f i k).val = (bandRow bands f i k).val := by
  have hwhite := bandImage_whiteOn bands i
  simp only [edgeRow, val_bind, leftSearch_of_whiteOn hwhite, rightSearch_of_whiteOn hwhite]
  rfl

/-- A frame that shows a road drawn in bands. -/
def bandFrame (bands : List (Int × Int × Int)) : Frame := ⟨bandImage bands, 0, 0⟩

/-- `findEdges` on a road drawn in bands. -/
def bandEdges (bands : List (Int × Int × Int)) (f : Findline1) (columnStart : Int) :
    Logged Access (Findline1 × Int) :=
  foldDown 118 10 (f, columnStart) fun i st => do
    let row ← bandRow bands st.1 i st.2
    let f ← st.1.storeRow i row
    return (f, row.midline)

theorem findEdges_band (bands : List (Int × Int × Int)) (f : Findline1) (columnStart : Int) :
    (findEdges (bandImage bands) f columnStart).val = (bandEdges bands f columnStart).val := by
  refine foldDown_rel (fun _ s t => s = t) rfl rfl ?_
  rintro i s _ hlo hhi rfl
  simp only [val_bind, edgeRow_band]

/-- `findline1` on a road drawn in bands. -/
def bandFindline1 (bands : List (Int × Int × Int)) (s : Lines) : Lines :=
  let f1 := (bandEdges bands s.f1 s.columnStart).val.1
  let f2 := { s.f2 with toppoint := 0, toppointFlag := 0 }
  { s with f1, f2 := (findToppoint (bandImage bands) f1 f2).val, columnStart := f1.midline 118 }

theorem findline1_bandImage (bands : List (Int × Int × Int)) (loseCnt shortstraightFlag : Int)
    (s : Lines) :
    (findline1 ⟨bandImage bands, loseCnt, shortstraightFlag⟩ s).val = bandFindline1 bands s := by
  simp only [findline1, findline1Rows, bandFindline1, val_bind, findEdges_band, if_true, val_pure,
    mid_val]

theorem findline1_band (bands : List (Int × Int × Int)) (s : Lines) :
    (findline1 (bandFrame bands) s).val = bandFindline1 bands s :=
  findline1_bandImage bands 0 0 s

/-- One frame on a road drawn in bands. -/
def bandStep (bands : List (Int × Int × Int)) (s : Lines) : Lines :=
  (findline2 (bandFrame bands) (bandFindline1 bands s)).val

theorem nextFrame_band (bands : List (Int × Int × Int)) (s : Lines) :
    nextFrame (bandFrame bands) s = bandStep bands s := by
  unfold bandStep
  rw [← findline1_band]
  rfl

theorem afterFrames_band (roads : List (List (Int × Int × Int))) :
    afterFrames (roads.map bandFrame) = run bandStep Lines.init roads := by
  simp only [afterFrames, run_map, nextFrame_band]

/-! ### Roads with a ring -/

/-- A road with a left corner and an opening to the left behind it. -/
def leftRingRoad : List (Int × Int × Int) :=
  [(81, 30, 130), (80, 40, 130), (77, 30, 130), (31, 0, 130)]

/-- A road with a right corner and an opening to the right behind it. -/
def rightRingRoad : List (Int × Int × Int) :=
  [(81, 30, 130), (80, 30, 120), (77, 30, 135), (31, 30, 159)]

end SmartCar
