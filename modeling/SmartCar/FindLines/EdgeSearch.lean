import SmartCar.FindLines.State

/-!
# `findline1` and `find_toppoint`

`findline1` searches the two edges of rows 118 to 11, each row starting from
the centre line found one row below, and ends by looking for the far end of
the road.
-/

namespace SmartCar

open Imperative

/-! ## One row -/

/-- White, white, black going left from column `j`. -/
def leftJump (img : Image) (i j : Int) : Logged Access Bool :=
  white img i j <&&> white img i (j - 1) <&&> black img i (j - 2)

/-- White, white, black going right from column `j`. -/
def rightJump (img : Image) (i j : Int) : Logged Access Bool :=
  white img i j <&&> white img i (j + 1) <&&> black img i (j + 2)

/-- The cells of `f1` in one row. -/
structure EdgeRow where
  leftline : Int
  midline : Int
  rightline : Int
  leftlineflag : Int
  rightlineflag : Int

/-- `m > 159 ? 159 : m`, then `m < 0 ? 0 : m`. -/
def clampColumn (m : Int) : Int :=
  let m := if m > 159 then 159 else m
  if m < 0 then 0 else m

/-- `leftline` after a search that stopped at column `j`, or found nothing. -/
def leftEdge : Option Int → Int
  | some j => j - 1
  | none => 0

/-- `rightline` after a search that stopped at column `j`, or found nothing. -/
def rightEdge : Option Int → Int
  | some j => j + 1
  | none => 159

def edgeFlag : Option Int → Int
  | some _ => 1
  | none => 0

/-- The centre column of row `i` before it is clamped, from the outcome of the
two searches. With one edge lost the centre is copied from the row below where
the found edge does not close in although both edges were lost fifteen rows
nearer; with both lost it is always copied. -/
def edgeMid (f : Findline1) (i : Int) (foundLeft foundRight : Option Int) :
    Logged Access Int := do
  let l := leftEdge foundLeft
  let r := rightEdge foundRight
  match foundLeft, foundRight with
  | some _, some _ => return (l + r).tdiv 2
  | none, some _ =>
      if ← Logged.check (i < 99) <&&> Logged.le (pure r) (f.right (i + 1)) <&&>
          (f.lflag (i + 15)).eq 0 <&&> (f.rflag (i + 15)).eq 0 then f.mid (i + 1)
      else return (l + r).tdiv 2
  | some _, none =>
      if ← Logged.check (i < 99) <&&> Logged.ge (pure l) (f.left (i + 1)) <&&>
          (f.lflag (i + 15)).eq 0 <&&> (f.rflag (i + 15)).eq 0 then f.mid (i + 1)
      else return (l + r).tdiv 2
  -- row 118 has no row below it, so it starts from the middle of the image
  | none, none => if i = 118 then return 80 else f.mid (i + 1)

/-- The cells that `findline1` computes for row `i`, with the search started
at column `k`. -/
def edgeRow (img : Image) (f : Findline1) (i k : Int) : Logged Access EdgeRow := do
  let foundLeft ← scanDown k 2 (leftJump img i)
  let foundRight ← scanUp k 157 (rightJump img i)
  let m ← edgeMid f i foundLeft foundRight
  return ⟨leftEdge foundLeft, clampColumn m, rightEdge foundRight,
    edgeFlag foundLeft, edgeFlag foundRight⟩

def Findline1.setRow (f : Findline1) (i : Int) (row : EdgeRow) : Findline1 where
  midline := Function.update f.midline i row.midline
  leftline := Function.update f.leftline i row.leftline
  rightline := Function.update f.rightline i row.rightline
  leftlineflag := Function.update f.leftlineflag i row.leftlineflag
  rightlineflag := Function.update f.rightlineflag i row.rightlineflag

def Findline1.storeRow (f : Findline1) (i : Int) (row : EdgeRow) : Logged Access Findline1 := do
  Logged.touch (.leftline i)
  Logged.touch (.leftlineflag i)
  Logged.touch (.midline i)
  Logged.touch (.rightline i)
  Logged.touch (.rightlineflag i)
  return f.setRow i row

/-- The row loop of `findline1`: the arrays and `column_start`. -/
def findEdges (img : Image) (f : Findline1) (columnStart : Int) :
    Logged Access (Findline1 × Int) :=
  foldDown 118 10 (f, columnStart) fun i st => do
    let row ← edgeRow img st.1 i st.2
    let f ← st.1.storeRow i row
    return (f, row.midline)

/-! ## The far end of the road -/

/-- The centre column of row `i` is white here and black one, three or five
rows further. -/
def toppointEdge (img : Image) (f : Findline1) (i : Int) : Logged Access Bool := do
  let m ← f.mid i
  white img i m <&&> (black img (i - 1) m <||> black img (i - 3) m <||> black img (i - 5) m)

/-- The centre line has left the middle of the image. -/
def midlineOut (f : Findline1) (i : Int) : Logged Access Bool :=
  (f.mid i).gt 150 <||> (f.mid i).lt 10

def Findline2.setToppoint (f2 : Findline2) : Option Int → Findline2
  | some i => { f2 with toppoint := i, toppointFlag := 1 }
  | none => f2

def findToppoint (img : Image) (f1 : Findline1) (f2 : Findline2) : Logged Access Findline2 := do
  let f2 := f2.setToppoint (← scanDown 100 5 (toppointEdge img f1))
  -- no edge of the road ahead: the row on which the centre line leaves the image
  if f2.toppointFlag = 0 then
    return f2.setToppoint (← scanDown 118 2 (midlineOut f1))
  else
    return f2

/-- `findline1` up to the call of `find_toppoint`. -/
def findline1Rows (fr : Frame) (s : Lines) : Logged Access Lines := do
  let f2 := { s.f2 with toppoint := 0, toppointFlag := 0 }
  let (f1, _) ← findEdges fr.image s.f1 s.columnStart
  let columnStart ← f1.mid 118
  return { s with f1, f2, columnStart }

def findline1 (fr : Frame) (s : Lines) : Logged Access Lines := do
  let s ← findline1Rows fr s
  if s.f2.toppointFlag = 0 then
    let f2 ← findToppoint fr.image s.f1 s.f2
    return { s with f2 }
  else
    return s

end SmartCar
