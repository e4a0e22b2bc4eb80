import SmartCar.FindLines.Rings

/-!
# The compensation loops of `findline2`

Each block redraws the centre line from one edge. The blocks that may run into
the image border share one shape: a descending loop that clamps and stops where
the new centre line meets the border, then a fill of all further rows.
-/

namespace SmartCar

open Imperative Logged

/-! ## Shared shapes -/

/-- `f1.midline[i] = target` for every row of the loop, without a clamp. -/
def redraw (hi lo : Int) (target : Findline1 → Int → Logged Access Int) (f : Findline1) :
    Logged Access Findline1 :=
  foldDown hi lo f fun i f => do
    let m ← target f i
    f.storeMid i m

/-- Redraw downwards until the new centre line meets the border column `v`, as
`meets` says. The second component is the row where it does, `L` or `R`. -/
def bend (meets : Int → Bool) (v hi lo : Int) (target : Findline1 → Int → Logged Access Int)
    (f : Findline1) (r : Int) : Logged Access (Findline1 × Int) :=
  forDown hi lo (f, r) fun i st => do
    let m ← target st.1 i
    if meets m then return .done (← st.1.storeMid i v, i)
    else return .yield (← st.1.storeMid i m, st.2)

/-- Rows `r` to 1 lie on the border column `v`. -/
def fillBorder (r v : Int) (f : Findline1) : Logged Access Findline1 :=
  foldDown r 0 f fun i f => f.storeBorder i v

/-- Bend, then fill from the row where the border was met, or from the far end
if it was not. -/
def bendFill (meets : Int → Bool) (v hi lo : Int) (target : Findline1 → Int → Logged Access Int)
    (toppoint : Int) (f : Findline1) (r : Int) : Logged Access (Findline1 × Int) := do
  let (f, r) ← bend meets v hi lo target f r
  let r := if r = 0 then toppoint else r
  return (← fillBorder r v f, r)

/-- `f1.midline[i] <= 0`. -/
def meetsLeft (m : Int) : Bool := decide (m ≤ 0)

/-- `f1.midline[i] >= 159`. -/
def meetsRight (m : Int) : Bool := decide (m ≥ 159)

/-- A block towards the left border. -/
def leftBlock (hi lo : Int) (target : Findline1 → Int → Logged Access Int) (s : Lines) :
    Logged Access Lines := do
  let (f1, L) ← bendFill meetsLeft 0 hi lo target s.f2.toppoint s.f1 s.L
  return { s with f1, L }

/-- A block towards the right border. -/
def rightBlock (hi lo : Int) (target : Findline1 → Int → Logged Access Int) (s : Lines) :
    Logged Access Lines := do
  let (f1, R) ← bendFill meetsRight 159 hi lo target s.f2.toppoint s.f1 s.R
  return { s with f1, R }

/-! ## Inside a ring -/

/-- Row `i` is where the inner edge of a left ring comes back into view. -/
def leftRingBodyAt (f : Findline1) (i : Int) : Logged Access Bool :=
  (f.right i - f.left i).lt (f.right (i + 3) - f.left (i + 3)) <&&>
  (f.right i - f.left i).lt (f.right (i - 3) - f.left (i - 3)) <&&>
  (f.lflag (i - 3)).eq 1 <&&> (f.lflag (i + 3)).eq 1 <&&>
  Logged.check (i ≥ 53) <&&> (f.rflag i).ne 0 <&&> (f.rflag (i + 4)).ne 0 <&&>
  (f.rflag (i - 4)).ne 0 <&&> (f.rflag (i + 8)).ne 0 <&&> (f.rflag (i - 8)).ne 0

/-- Row `i` is where the inner edge of a right ring comes back into view. -/
def rightRingBodyAt (f : Findline1) (i : Int) : Logged Access Bool :=
  (f.right i - f.left i).lt (f.right (i + 3) - f.left (i + 3)) <&&>
  (f.right i - f.left i).lt (f.right (i - 3) - f.left (i - 3)) <&&>
  (f.rflag (i - 3)).eq 1 <&&> (f.rflag (i + 3)).eq 1 <&&>
  Logged.check (i ≥ 53) <&&> (f.lflag i).ne 0 <&&> (f.lflag (i + 4)).ne 0 <&&>
  (f.rflag (i - 4)).ne 0

/-- Left ring, `HL == 0`: half a road width inside the right edge. -/
def leftRingEntryTarget (f : Findline1) (i : Int) : Logged Access Int := do
  if ← (f.rflag i).eq 0 then f.mid (i + 1)
  else f.right i - readHalfWidth i

/-- Left ring, `HL == 1`. -/
def leftRingBodyTarget (f : Findline1) (i : Int) : Logged Access Int := do
  if ← Logged.check (i < 85) <&&> (f.lflag i).eq 0 then f.mid (i + 2) - 3
  else if ← Logged.check (i ≥ 85) <&&> (f.lflag i).eq 0 then f.mid (i + 1)
  else f.left i + readHalfWidth i

/-- Right ring, `HR == 0`: half a road width inside the left edge. -/
def rightRingEntryTarget (f : Findline1) (i : Int) : Logged Access Int := do
  if ← (f.left i).eq 0 then f.mid (i + 1)
  else f.left i + readHalfWidth i

/-- Right ring, `HR == 1`. -/
def rightRingBodyTarget (f : Findline1) (i : Int) : Logged Access Int := do
  if ← Logged.check (i < 85) <&&> (f.rflag i).eq 0 then f.mid (i + 2) + 3
  else if ← Logged.check (i ≥ 85) <&&> (f.rflag i).eq 0 then f.mid (i + 1)
  else f.right (i + 1) - readHalfWidth i

/-- `HL` is set once the inner edge of a left ring is in view. -/
def leftRingPhase (s : Lines) : Logged Access Lines := do
  let found ← scanDown 100 s.f2.toppoint (leftRingBodyAt s.f1)
  return { s with HL := if found.isSome then 1 else s.HL }

def leftRingDraw (s : Lines) : Logged Access Lines := do
  let s ← onlyIf (s.HL = 0) (fun s => do
    let f1 ← redraw 117 s.f2.toppoint leftRingEntryTarget s.f1
    return { s with f1 }) s
  onlyIf (s.HL = 1) (leftBlock 115 35 leftRingBodyTarget) s

/-- The centre line of a left ring, up to the corner search. -/
def leftRingRedraw (s : Lines) : Logged Access Lines := do leftRingDraw (← leftRingPhase s)

/-- The corner at which a left ring is left, and the turn flag it overrules. -/
def leftRingLeave (s : Lines) : Logged Access Lines := do
  let f2 ← findHuanguai s.f1 s.f2
  let s := { s with f2 }
  let s := if s.f2.righthuanguaiflag = 1 ∧ s.f2.righthuanguaiColumn ≥ 125 then
      { s with n := 0, js3 := 1,
               f2 := { s.f2 with huanleftflag := 0, lefthuanguaiflag := 0, huan := 1 } }
    else s
  return { s with f2 := { s.f2 with leftturnflag := 0 } }

/-- `HR` is set once the inner edge of a right ring is in view. -/
def rightRingPhase (s : Lines) : Logged Access Lines := do
  let found ← scanDown 100 s.f2.toppoint (rightRingBodyAt s.f1)
  return { s with HR := if found.isSome then 1 else s.HR }

def rightRingDraw (s : Lines) : Logged Access Lines := do
  if s.HR = 0 then
    let f1 ← redraw 117 s.f2.toppoint rightRingEntryTarget s.f1
    return { s with f1 }
  else onlyIf (s.HR = 1) (rightBlock 115 35 rightRingBodyTarget) s

/-- The centre line of a right ring, up to the corner search. -/
def rightRingRedraw (s : Lines) : Logged Access Lines := do rightRingDraw (← rightRingPhase s)

/-- The corner at which a right ring is left, and the turn flag it overrules. -/
def rightRingLeave (s : Lines) : Logged Access Lines := do
  let f2 ← findHuanguai s.f1 s.f2
  let s := { s with f2 }
  let s := if s.f2.lefthuanguaiflag = 1 ∧ s.f2.lefthuanguaiColumn ≤ 35 then
      { s with n := 0, js4 := 1,
               f2 := { s.f2 with huanrightflag := 0, righthuanguaiflag := 0, huan := 1 } }
    else s
  return { s with f2 := { s.f2 with rightturnflag := 0 } }

def leftRing (s : Lines) : Logged Access Lines :=
  onlyIf (s.f2.huanleftflag ≠ 0) (fun s => do leftRingLeave (← leftRingRedraw s)) s

def rightRing (s : Lines) : Logged Access Lines :=
  onlyIf (s.f2.huanrightflag ≠ 0) (fun s => do rightRingLeave (← rightRingRedraw s)) s

/-- The ring block of `findline2`, up to its call of `find_toppoint`. -/
def ringCompensate (s : Lines) : Logged Access Lines := do rightRing (← leftRing s)

/-! ## Leaving a ring -/

/-- `js7`: the centre line of the exit of a left ring. -/
def leftExitTarget (f : Findline1) (i : Int) : Logged Access Int := do
  if ← (f.rflag i).eq 0 then f.mid (i + 2) - 2
  else if ← (f.right i).gt (f.right (i + 1)) <&&> (f.rflag i).ne 0 then f.mid (i + 2) - 3
  else f.right i - readHalfWidth i

/-- `js8`: the centre line of the exit of a right ring. -/
def rightExitTarget (f : Findline1) (i : Int) : Logged Access Int := do
  if ← (f.lflag i).eq 0 then f.mid (i + 1) + 3
  else if ← (f.left i).lt (f.left (i + 1)) <&&> (f.lflag i).ne 0 then f.mid (i + 2) + 3
  else f.left i + readHalfWidth i

/-- `js7 == 1`. -/
def leftExitBlock (s : Lines) : Logged Access Lines := leftBlock 110 s.f2.toppoint leftExitTarget s

/-- `js8 == 1`. Unlike the other blocks towards the right border this one fills
from `L` where the bend met the border. -/
def rightExitBlock (s : Lines) : Logged Access Lines := do
  let (f, R) ← bend meetsRight 159 110 35 rightExitTarget s.f1 s.R
  -- `L` in the source, where the other blocks keep `R`
  let R := if R = 0 then s.f2.toppoint else s.L
  let f1 ← fillBorder R 159 f
  return { s with f1, R }

/-- The rows of 95 to 46 on which both edges are found. -/
def countBothFound (f : Findline1) : Logged Access Int :=
  foldDown 95 45 0 fun i m => do
    if ← (f.lflag i).eq 1 <&&> (f.rflag i).eq 1 then return m + 1 else return m

/-- The centre line on the way out of a ring. -/
def exitRedraw (s : Lines) : Logged Access Lines :=
  if s.js7 = 1 ∧ s.js8 = 0 then leftExitBlock s
  else if s.js8 = 1 ∧ s.js7 = 0 then rightExitBlock s
  else pure s

/-- The assignments at the head of the exit block. -/
def Lines.clearTurns (s : Lines) : Lines :=
  { s with f2 := { s.f2 with leftturnflag := 0, rightturnflag := 0,
                             shiziflag1 := 0, shiziflag0 := 0 } }

/-- The block `js7 != 0 || js8 != 0` of `findline2`. -/
def huanExit (shortstraightFlag : Int) (s : Lines) : Logged Access Lines := do
  let s ← exitRedraw s.clearTurns
  let m ← countBothFound s.f1
  return if m > 40 ∧ shortstraightFlag ≠ 0 then
      { s with js11 := 0, js12 := 0, HL := 0, HR := 0, n := 0, js7 := 0, js8 := 0,
               f2 := { s.f2 with huan := 0 } }
    else s

/-! ## Turns -/

/-- `leftturnflag == 1`. -/
def leftTurnTarget (f : Findline1) (i : Int) : Logged Access Int := do
  if ← (f.right i).eq 159 then f.mid (i + 1) - 1
  else f.mid (i + 1) - (f.right (i + 1) - f.right i)

/-- `leftturnflag == 3`. -/
def leftDeepTarget (f : Findline1) (i : Int) : Logged Access Int := do
  let r ← f.right i
  let m := r - 80
  let m := if m > 159 then 159 else m
  return if m < 0 then 0 else m

/-- `rightturnflag == 1`. -/
def rightTurnTarget (f : Findline1) (i : Int) : Logged Access Int := do
  if ← (f.left i).eq 0 then f.mid i + 1
  else f.mid (i + 1) + (f.left i - f.left (i + 1))

/-- `rightturnflag == 3`. -/
def rightDeepTarget (f : Findline1) (i : Int) : Logged Access Int := f.left i + 80

def leftTurnBlock (s : Lines) : Logged Access Lines :=
  leftBlock s.f2.leftturnRow s.f2.toppoint leftTurnTarget s

def leftDeepBlock (s : Lines) : Logged Access Lines := leftBlock 118 0 leftDeepTarget s

def rightTurnBlock (s : Lines) : Logged Access Lines :=
  rightBlock s.f2.rightturnRow 0 rightTurnTarget s

def rightDeepBlock (s : Lines) : Logged Access Lines := rightBlock 118 0 rightDeepTarget s

/-- The turn compensation of `findline2`. -/
def turnCompensate (s : Lines) : Logged Access Lines :=
  onlyIf (s.f2.leftturnflag ≠ 0 ∨ s.f2.rightturnflag ≠ 0) (fun s => do
    let s ← onlyIf (s.f2.leftturnflag = 1) leftTurnBlock s
    let s ← onlyIf (s.f2.leftturnflag = 3) leftDeepBlock s
    let s ← onlyIf (s.f2.rightturnflag = 1) rightTurnBlock s
    onlyIf (s.f2.rightturnflag = 3) rightDeepBlock s) s

end SmartCar
