import Mathlib.Logic.Function.Basic
import SmartCar.Imperative.Loop

/-!
# The globals of `findLines.c`

Rows are numbered as in the image, 0 at the far end and 119 at the bumper. The
`int16` arrays are total maps on row numbers; which rows the code really
touches is recorded in the log of each computation, so nothing is assumed about
cells outside the declared bounds. The values kept in them stay far inside the
`int16` range, so they are plain integers.
-/

namespace SmartCar

open Imperative

/-- `BinImage`: the pixel at a row and a column. -/
abbrev Image := Int → Int → UInt8

/-- A cell that the code reads or writes. -/
inductive Access where
  | midline (i : Int)
  | leftline (i : Int)
  | rightline (i : Int)
  | leftlineflag (i : Int)
  | rightlineflag (i : Int)
  | halfWidth (i : Int)
  | pixel (i j : Int)
deriving DecidableEq

/-- The row index used by an access. -/
def Access.row : Access → Int
  | .midline i | .leftline i | .rightline i | .leftlineflag i | .rightlineflag i
  | .halfWidth i | .pixel i _ => i

/-- The row index is one of the 120 rows of the arrays and of the image. -/
def Access.InRows (e : Access) : Prop := 0 ≤ e.row ∧ e.row ≤ 119

/-- The cell exists: the row does, and for a pixel the column does. -/
def Access.InBounds : Access → Prop
  | .pixel i j => (0 ≤ i ∧ i ≤ 119) ∧ 0 ≤ j ∧ j ≤ 159
  | e => e.InRows

instance (e : Access) : Decidable e.InRows := inferInstanceAs (Decidable (_ ∧ _))

/-- `Findline1_TypeDef`: the edges and the centre line, row by row. -/
structure Findline1 where
  midline : Int → Int
  leftline : Int → Int
  rightline : Int → Int
  leftlineflag : Int → Int
  rightlineflag : Int → Int

/-- `Findline2_TypeDef`: what was recognised in the frame. -/
structure Findline2 where
  leftturnflag : Int
  rightturnflag : Int
  leftturnRow : Int
  rightturnRow : Int
  leftguaiColumn : Int
  leftguaiRow : Int
  leftguaiflag : Int
  rightguaiflag : Int
  rightguaiColumn : Int
  rightguaiRow : Int
  toppoint : Int
  toppointFlag : Int
  shiziflag0 : Int
  shiziflag1 : Int
  huan : Int
  huanrightflag : Int
  huanleftflag : Int
  lefthuanguaiRow : Int
  lefthuanguaiColumn : Int
  lefthuanguaiflag : Int
  righthuanguaiRow : Int
  righthuanguaiColumn : Int
  righthuanguaiflag : Int

/-- The global variables of `findLines.c`. -/
structure Lines where
  f1 : Findline1
  f2 : Findline2
  L : Int
  R : Int
  HL : Int
  HR : Int
  n : Int
  js1 : Int
  js2 : Int
  js3 : Int
  js4 : Int
  js5 : Int
  js6 : Int
  js7 : Int
  js8 : Int
  js11 : Int
  js12 : Int
  columnStart : Int

/-- What one frame takes from outside `findLines.c`: the binary image, the
value found in the uninitialised local `lose_cnt` of `find_curve1`, and the
global `shortstraight_flag` as the road classifier last left it. -/
structure Frame where
  image : Image
  loseCnt : Int
  shortstraightFlag : Int

/-- Zero-initialised globals, `column_start = 80`. -/
def Lines.init : Lines where
  f1 := ⟨fun _ => 0, fun _ => 0, fun _ => 0, fun _ => 0, fun _ => 0⟩
  f2 := ⟨0, 0, 0, 0, 0, 0, 0, 0, 0, 0, 0, 0, 0, 0, 0, 0, 0, 0, 0, 0, 0, 0, 0⟩
  L := 0
  R := 0
  HL := 0
  HR := 0
  n := 0
  js1 := 0
  js2 := 0
  js3 := 0
  js4 := 0
  js5 := 0
  js6 := 0
  js7 := 0
  js8 := 0
  js11 := 0
  js12 := 0
  columnStart := 80

/-- The initialiser of `half_width`. -/
def halfWidthTable : List Int :=
  [4, 4, 4, 5, 5, 5, 6, 6, 7, 7,
   8, 9, 10, 11, 12, 13, 14, 15, 16, 17,
   17, 18, 18, 19, 20, 20, 21, 22, 22, 23,
   23, 24, 24, 25, 25, 26, 26, 27, 28, 29,
   30, 30, 30, 31, 31, 32, 32, 33, 34, 34,
   34, 35, 36, 36, 37, 37, 38, 38, 39, 39,
   40, 40, 41, 41, 42, 43, 43, 44, 44, 45,
   46, 46, 47, 47, 48, 48, 49, 49, 50, 50,
   51, 51, 52, 52, 53, 53, 54, 55, 55, 56,
   56, 57, 57, 58, 58, 59, 60, 60, 61, 61,
   62, 62, 63, 63, 64, 65, 65, 66, 67, 67,
   68, 68, 69, 69, 70, 70, 71, 71, 72, 72]

def halfWidth (i : Int) : Int := halfWidthTable.getD i.toNat 0

theorem halfWidth_bounds (i : Int) (hlo : 0 ≤ i) (hhi : i ≤ 119) :
    4 ≤ halfWidth i ∧ halfWidth i ≤ 72 := by
  have htable : ∀ k : Fin 120, 4 ≤ halfWidthTable.getD k 0 ∧ halfWidthTable.getD k 0 ≤ 72 := by
    decide
  exact htable ⟨i.toNat, by omega⟩

/-! ## Reading cells -/

section Reads

variable (img : Image) (f : Findline1)

def white (i j : Int) : Logged Access Bool := Logged.read (.pixel i j) (img i j != 0)

def black (i j : Int) : Logged Access Bool := Logged.read (.pixel i j) (img i j == 0)

namespace Findline1

def mid (i : Int) : Logged Access Int := Logged.read (.midline i) (f.midline i)

def left (i : Int) : Logged Access Int := Logged.read (.leftline i) (f.leftline i)

def right (i : Int) : Logged Access Int := Logged.read (.rightline i) (f.rightline i)

def lflag (i : Int) : Logged Access Int := Logged.read (.leftlineflag i) (f.leftlineflag i)

def rflag (i : Int) : Logged Access Int := Logged.read (.rightlineflag i) (f.rightlineflag i)

end Findline1

def readHalfWidth (i : Int) : Logged Access Int := Logged.read (.halfWidth i) (halfWidth i)

variable {P : Access → Prop} (i j : Int)

@[simp] theorem white_val : (white img i j).val = (img i j != 0) := (rfl)

@[simp] theorem black_val : (black img i j).val = (img i j == 0) := (rfl)

@[simp] theorem mid_val : (f.mid i).val = f.midline i := (rfl)

@[simp] theorem left_val : (f.left i).val = f.leftline i := (rfl)

@[simp] theorem right_val : (f.right i).val = f.rightline i := (rfl)

@[simp] theorem lflag_val : (f.lflag i).val = f.leftlineflag i := (rfl)

@[simp] theorem rflag_val : (f.rflag i).val = f.rightlineflag i := (rfl)

@[simp] theorem readHalfWidth_val : (readHalfWidth i).val = halfWidth i := (rfl)

@[simp] theorem all_white : Logged.All P (white img i j) ↔ P (.pixel i j) := Logged.all_read _ _

@[simp] theorem all_black : Logged.All P (black img i j) ↔ P (.pixel i j) := Logged.all_read _ _

@[simp] theorem all_mid : Logged.All P (f.mid i) ↔ P (.midline i) := Logged.all_read _ _

@[simp] theorem all_left : Logged.All P (f.left i) ↔ P (.leftline i) := Logged.all_read _ _

@[simp] theorem all_right : Logged.All P (f.right i) ↔ P (.rightline i) := Logged.all_read _ _

@[simp] theorem all_lflag : Logged.All P (f.lflag i) ↔ P (.leftlineflag i) := Logged.all_read _ _

@[simp] theorem all_rflag : Logged.All P (f.rflag i) ↔ P (.rightlineflag i) := Logged.all_read _ _

@[simp] theorem all_readHalfWidth : Logged.All P (readHalfWidth i) ↔ P (.halfWidth i) :=
  Logged.all_read _ _

end Reads

/-! ## Writing rows -/

namespace Findline1

variable (f : Findline1)

/-- `f1.midline[i] = v`. -/
def setMid (i v : Int) : Findline1 := { f with midline := Function.update f.midline i v }

/-- Both edges and the centre line of row `i` set to the column `v`. -/
def setBorder (i v : Int) : Findline1 :=
  { f with
    leftline := Function.update f.leftline i v
    rightline := Function.update f.rightline i v
    midline := Function.update f.midline i v }

def storeMid (i v : Int) : Logged Access Findline1 := do
  Logged.touch (.midline i)
  return f.setMid i v

def storeBorder (i v : Int) : Logged Access Findline1 := do
  Logged.touch (.leftline i)
  Logged.touch (.rightline i)
  Logged.touch (.midline i)
  return f.setBorder i v

@[simp] theorem storeMid_val (i v : Int) : (f.storeMid i v).val = f.setMid i v := (rfl)

@[simp] theorem storeBorder_val (i v : Int) : (f.storeBorder i v).val = f.setBorder i v := (rfl)

@[simp] theorem all_storeMid {P : Access → Prop} (i v : Int) :
    Logged.All P (f.storeMid i v) ↔ P (.midline i) := by
  simp [storeMid]

@[simp] theorem all_storeBorder {P : Access → Prop} (i v : Int) :
    Logged.All P (f.storeBorder i v) ↔
      P (.leftline i) ∧ P (.rightline i) ∧ P (.midline i) := by
  simp [storeBorder]

end Findline1

end SmartCar
