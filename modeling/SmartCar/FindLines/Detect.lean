import SmartCar.FindLines.State

/-!
# Corners, crossings, rings and turns

The `find_*` and `*_judge` functions that `findline2` calls. They read the rows
of `f1` and write `f2` and the ring counters. A search loop of the source that
does nothing until its test holds, and then stops or stays idle, is a
`scanDown` over that test.
-/

namespace SmartCar

open Imperative Logged

/-! ## `find_guai` -/

/-- Row `i` shows the near left corner of a crossing. -/
def leftGuaiAt (f : Findline1) (i : Int) : Logged Access Bool :=
  Logged.check (i > 45) <&&> (f.left i).lt 140 <&&> (f.left i).gt (f.left (i + 3)) <&&>
  (f.left i).gt (f.left (i - 3)) <&&> (f.left i).gt (f.left (i + 5)) <&&>
  (f.left i).gt (f.left (i - 2)) <&&> (f.left i).gt (f.left (i - 4)) <&&>
  (f.left (i - 3) - f.left (i + 3)).lt 2 <&&> (f.lflag (i + 3)).eq 1 <&&>
  (f.lflag (i - 5)).eq 0 <&&> (f.lflag i).eq 1 <&&>
  (2 * f.left i - f.left (i - 3) - f.left (i + 3)).gt 4

/-- Row `i` shows the near right corner of a crossing. The comparisons with
rows `i - 2` and `i - 4` and the test of the flag of row `i` that the left side
makes are absent here. -/
def rightGuaiAt (f : Findline1) (i : Int) : Logged Access Bool :=
  Logged.check (i > 45) <&&> (f.right i).gt 20 <&&> (f.right i).lt (f.right (i + 3)) <&&>
  (f.right i).lt (f.right (i - 3)) <&&> (f.right i).lt (f.right (i + 5)) <&&>
  (f.right (i - 3) - f.right (i + 3)).gt 2 <&&> (f.rflag (i + 3)).eq 1 <&&>
  (f.rflag (i - 5)).eq 0 <&&>
  (f.right (i + 3) + f.right (i - 3) - 2 * f.right i).gt 4

def findLeftguai (f1 : Findline1) (f2 : Findline2) : Logged Access Findline2 := do
  match ← scanDown 108 (f2.toppoint + 4) (leftGuaiAt f1) with
  | some i =>
      let c ← f1.left i
      return { f2 with leftguaiflag := 1, leftguaiRow := i, leftguaiColumn := c }
  | none => return f2

def findRightguai (f1 : Findline1) (f2 : Findline2) : Logged Access Findline2 := do
  match ← scanDown 108 (f2.toppoint + 4) (rightGuaiAt f1) with
  | some i =>
      let c ← f1.right i
      return { f2 with rightguaiflag := 1, rightguaiRow := i, rightguaiColumn := c }
  | none => return f2

def findGuai (f1 : Findline1) (f2 : Findline2) : Logged Access Findline2 :=
  onlyIf (f2.toppoint < 70 ∧ f2.toppoint > 5) (fun f2 => do
    let f2 ← onlyIf (f2.leftguaiflag = 0) (findLeftguai f1) f2
    onlyIf (f2.rightguaiflag = 0) (findRightguai f1) f2) f2

/-! ## `find_curve1` -/

/-- The rows from `r` down to the far end whose flag is 0, counted onto `lose`. -/
def countLost (flag : Int → Logged Access Int) (r toppoint lose : Int) : Logged Access Int :=
  foldDown r toppoint lose fun i lose => do
    if ← (flag i).eq 0 then return lose + 1 else return lose

/-- The left edge is first lost at row `i`. -/
def leftCurve1At (f : Findline1) (f2 : Findline2) (i : Int) : Logged Access Bool :=
  Logged.check (f2.leftturnflag = 0) <&&> (f.lflag (i + 1)).eq 1 <&&>
  (f.lflag (i + 2)).eq 1 <&&> (f.rflag i).eq 1 <&&>
  (f.rflag (i - 5)).eq 1 <&&> Logged.check (i > 30)

/-- The right edge is first lost at row `i`. -/
def rightCurve1At (f : Findline1) (f2 : Findline2) (i : Int) : Logged Access Bool :=
  Logged.check (f2.rightturnflag = 0) <&&> (f.rflag (i + 1)).eq 1 <&&>
  (f.rflag (i + 2)).eq 1 <&&> (f.lflag i).eq 1 <&&>
  (f.lflag (i - 5)).eq 1 <&&> Logged.check (i > 30)

/-- A small left turn at row `i`, with the two guards that may cancel a turn. -/
def takeLeftCurve1 (loseCnt : Int) (f : Findline1) (i : Int) (f2 : Findline2) :
    Logged Access Findline2 := do
  let f2 := { f2 with leftturnRow := i, leftturnflag := 1 }
  let far ← Logged.check (i < 40) <&&> (f.right (i - 5)).gt 100 <&&>
    (f.right (i - 5)).gt (f.right i) <&&> (f.right (i - 5) - f.right i).gt 10
  -- a far left turn clears the right side, not the side it was found on
  let f2 := if far then { f2 with rightturnRow := 0, rightturnflag := 0 } else f2
  onlyIf (f2.shiziflag1 = 1 ∧ f2.leftturnflag = 1) (fun f2 => do
    -- `lose_cnt` is counted up from whatever it holds
    let lose ← countLost f.rflag i f2.toppoint loseCnt
    return if lose > 5 then { f2 with leftturnRow := 0, leftturnflag := 0 } else f2) f2

/-- A small right turn at row `i`, with the two guards that may cancel a turn. -/
def takeRightCurve1 (loseCnt : Int) (f : Findline1) (i : Int) (f2 : Findline2) :
    Logged Access Findline2 := do
  let f2 := { f2 with rightturnRow := i, rightturnflag := 1 }
  let far ← Logged.check (i ≤ 40) <&&> (f.left (i - 5)).lt 60 <&&>
    (f.left (i - 5)).lt (f.left i) <&&> (f.left i - f.left (i - 5)).gt 10
  -- here, too, the other side is cleared
  let f2 := if far then { f2 with leftturnRow := 0, leftturnflag := 0 } else f2
  onlyIf (f2.shiziflag1 = 1) (fun f2 => do
    let lose ← countLost f.lflag i f2.toppoint loseCnt
    return if lose > 5 then { f2 with rightturnRow := 0, rightturnflag := 0 } else f2) f2

/-- `loseCnt` is the value of the uninitialised `lose_cnt` on entry. -/
def findCurve1 (loseCnt : Int) (f1 : Findline1) (f2 : Findline2) : Logged Access Findline2 :=
  forDown 115 (f2.toppoint + 3) f2 fun i f2 => do
    if ← (f1.lflag i).eq 0 then
      if ← leftCurve1At f1 f2 i then
        return .done (← takeLeftCurve1 loseCnt f1 i f2)
      else return .yield f2
    else if ← (f1.rflag i).eq 0 then
      if ← rightCurve1At f1 f2 i then
        return .done (← takeRightCurve1 loseCnt f1 i f2)
      else return .yield f2
    else return .yield f2

/-! ## `find_curve3` -/

/-- Whether an edge is lost on one of the rows 118 to 113, left and right. -/
def lostNear (f : Findline1) : Logged Access (Int × Int) :=
  foldDown 118 112 (0, 0) fun i flags => do
    let flagL := if ← (f.lflag i).eq 0 <&&> Logged.check (flags.1 = 0) then 1 else flags.1
    let flagR := if ← (f.rflag i).eq 0 <&&> Logged.check (flags.2 = 0) then 1 else flags.2
    return (flagL, flagR)

/-- The flag of a lost near edge is withdrawn by a farther row that contradicts
it. -/
def confirmLost (contradicts : Int → Logged Access Bool) (toppoint : Int) (flag : Int) :
    Logged Access Int :=
  onlyIf (flag = 1) (fun flag =>
    foldDown 100 (toppoint + 10) flag fun i flag => do
      if ← contradicts i then return 0 else return flag) flag

def findCurve3 (f1 : Findline1) (f2 : Findline2) : Logged Access Findline2 :=
  onlyIf (f2.leftturnflag = 0 ∧ f2.rightturnflag = 0) (fun f2 => do
    let flags ← lostNear f1
    let flagL ← confirmLost (fun i => (f1.lflag i).eq 1 <||> (f1.rflag i).eq 0) f2.toppoint flags.1
    let flagR ← confirmLost (fun i => (f1.lflag i).eq 0 <||> (f1.rflag i).eq 1) f2.toppoint flags.2
    return if flagL = 1 ∧ flagR = 0 then { f2 with leftturnflag := 3 }
      else if flagL = 0 ∧ flagR = 1 then { f2 with rightturnflag := 3 }
      else f2) f2

/-! ## Judging the corners -/

/-- No row from `row` to the far end has lost its right edge. -/
def rightRowLoseJudge (f1 : Findline1) (toppoint row : Int) : Logged Access Bool := do
  return (← scanDown row toppoint fun i => (f1.rflag i).eq 0).isNone

/-- No row from `row` to the far end has lost its left edge. -/
def leftRowLoseJudge (f1 : Findline1) (toppoint row : Int) : Logged Access Bool := do
  return (← scanDown row toppoint fun i => (f1.lflag i).eq 0).isNone

def Findline2.clearLeftguai (f2 : Findline2) : Findline2 :=
  { f2 with leftguaiflag := 0, leftguaiRow := 0, leftguaiColumn := 0 }

def Findline2.clearRightguai (f2 : Findline2) : Findline2 :=
  { f2 with rightguaiflag := 0, rightguaiRow := 0, rightguaiColumn := 0 }

/-- A left corner near the right border, or without a lost right edge beyond
it, is dropped. -/
def judgeLeftguai (f1 : Findline1) (f2 : Findline2) : Logged Access Findline2 := do
  if f2.leftguaiColumn > 140 then return f2.clearLeftguai
  else if ← rightRowLoseJudge f1 f2.toppoint f2.leftguaiRow then return f2.clearLeftguai
  else return f2

/-- A right corner near the left border, or without a lost left edge beyond it,
is dropped. -/
def judgeRightguai (f1 : Findline1) (f2 : Findline2) : Logged Access Findline2 := do
  if f2.rightguaiColumn < 20 then return f2.clearRightguai
  else if ← leftRowLoseJudge f1 f2.toppoint f2.rightguaiRow then return f2.clearRightguai
  else return f2

def shiziJudge (f1 : Findline1) (f2 : Findline2) : Logged Access Findline2 := do
  let f2 ← onlyIf (f2.leftguaiflag = 1) (judgeLeftguai f1) f2
  onlyIf (f2.rightguaiflag = 1) (judgeRightguai f1) f2

/-- Both edges are found on every row from `row + 5` to `row - 19`. -/
def bothFoundAround (f1 : Findline1) (row : Int) : Logged Access Bool := do
  return (← scanDown (row + 5) (row - 20) fun i =>
    (f1.lflag i).eq 0 <||> (f1.rflag i).eq 0).isNone

def bothRowLoseJudge (f1 : Findline1) (f2 : Findline2) : Logged Access Findline2 := do
  let f2 ← onlyIf (f2.leftguaiflag = 1) (fun f2 => do
    return if ← bothFoundAround f1 f2.leftguaiRow then { f2 with leftguaiflag := 0 } else f2) f2
  onlyIf (f2.rightguaiflag = 1) (fun f2 => do
    return if ← bothFoundAround f1 f2.rightguaiRow then { f2 with rightguaiflag := 0 } else f2) f2

end SmartCar
