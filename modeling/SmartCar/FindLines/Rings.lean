import SmartCar.FindLines.State

/-!
# Ring detection

`find_huan1`, `find_huan2` and `find_huan3` hand the stage of a ring detection
over through `js1` (left) and `js2` (right); `find_huanguai` looks for the
corner at which a ring is left.
-/

namespace SmartCar

open Imperative

/-! ## `find_huan1` -/

/-- The stage is 1 unless a row between the far end and row 95 has lost the
edge opposite to the corner. -/
def huan1Stage (flag : Int → Logged Access Int) (toppoint : Int) : Logged Access Int :=
  foldDown 95 toppoint 1 fun i js => do
    if ← (flag i).eq 0 then return 0 else return js

def findHuan1 (s : Lines) : Logged Access Lines := do
  if s.f2.leftguaiflag = 1 ∧ s.f2.rightguaiflag = 0 then
    let js1 ← huan1Stage s.f1.rflag s.f2.toppoint
    return { s with js1, js5 := s.f2.leftguaiRow }
  else if s.f2.leftguaiflag = 0 ∧ s.f2.rightguaiflag = 1 then
    let js2 ← huan1Stage s.f1.lflag s.f2.toppoint
    return { s with js2, js6 := s.f2.rightguaiRow }
  else return s

/-! ## `find_huan2` -/

/-- A row that supports a left ring: left edge lost here and found four rows
nearer, right edge found here and eight rows nearer. -/
def leftHuan2At (f : Findline1) (i : Int) : Logged Access Bool :=
  (f.lflag i).eq 0 <&&> (f.rflag i).ne 0 <&&> (f.rflag (i + 8)).ne 0 <&&>
  (f.lflag (i + 4)).eq 1

/-- A row that supports a right ring. -/
def rightHuan2At (f : Findline1) (i : Int) : Logged Access Bool :=
  (f.rflag i).eq 0 <&&> (f.lflag i).ne 0 <&&> (f.lflag (i + 8)).ne 0 <&&>
  (f.rflag (i + 4)).eq 1

/-- The locals and globals that the loop of `find_huan2` writes. -/
structure Huan2 where
  cout : Int
  js1 : Int
  js2 : Int

def huan2Step (f : Findline1) (i : Int) (c : Huan2) : Logged Access (ForInStep Huan2) := do
  if c.js1 = 1 ∧ c.js2 = 0 then
    let c := if ← leftHuan2At f i then { c with cout := c.cout + 1 } else c
    if c.cout ≥ 3 then return .done { c with js1 := 2 } else return .yield c
  else if c.js2 = 1 ∧ c.js1 = 0 then
    let c := if ← rightHuan2At f i then { c with cout := c.cout + 1 } else c
    if c.cout ≥ 3 then return .done { c with js2 := 2 } else return .yield c
  else return .yield c

def findHuan2 (s : Lines) : Logged Access Lines := do
  let c ← forDown 95 s.f2.toppoint ⟨0, s.js1, s.js2⟩ (huan2Step s.f1)
  let js1 := if c.js1 = 1 then 0 else c.js1
  let js2 := if c.js2 = 1 then 0 else c.js2
  return { s with js1, js2 }

/-! ## `find_huan3` -/

/-- The probes of `find_huan3` around row `i` and column `j` are all white. -/
def huan3Probe (img : Image) (i j : Int) : Logged Access Bool :=
  white img i j <&&> white img i (j - 1) <&&> white img i (j - 10) <&&>
  white img (i - 5) j <&&> white img (i - 10) j <&&> white img (i - 15) j <&&>
  white img (i - 20) j <&&> white img (i - 25) j <&&> white img i (j + 5)

/-- Row `i` is the island of a left ring. -/
def leftHuan3At (img : Image) (f : Findline1) (i : Int) : Logged Access Bool := do
  let peak ← (f.left i).gt (f.left (i + 3)) <&&> (f.left i).gt (f.left (i - 3)) <&&>
    (f.left i).gt (f.left (i + 5)) <&&> (f.left i).gt (f.left (i - 5))
  if peak then
    let j ← f.mid (i + 5)
    huan3Probe img i j <&&> (f.rflag i).eq 1 <&&> (f.rflag (i - 3)).eq 1 <&&>
      (f.rflag (i + 3)).eq 1 <&&> (f.right i - f.right (i - 3)).abs.le 6
  else return false

/-- Row `i` is the island of a right ring. -/
def rightHuan3At (img : Image) (f : Findline1) (i : Int) : Logged Access Bool := do
  let peak ← (f.right i).lt (f.right (i + 3)) <&&> (f.right i).lt (f.right (i - 3)) <&&>
    (f.right i).lt (f.right (i + 5)) <&&> (f.right i).lt (f.right (i - 5))
  if peak then
    let j ← f.mid (i + 5)
    huan3Probe img i j <&&> (f.lflag i).eq 1 <&&> (f.lflag (i - 3)).eq 1 <&&>
      (f.lflag (i + 3)).eq 1 <&&> (f.left i - f.left (i - 3)).abs.le 6
  else return false

def huan3At (img : Image) (s : Lines) (i : Int) : Logged Access Bool := do
  if s.js1 = 2 ∧ s.js2 = 0 then leftHuan3At img s.f1 i
  else if s.js1 = 0 ∧ s.js2 = 2 then rightHuan3At img s.f1 i
  else return false

def Lines.clearShizi (s : Lines) : Lines :=
  { s with f2 := { s.f2 with shiziflag0 := 0, shiziflag1 := 0 } }

/-- The side that reached stage 2 goes on to stage 3 and the crossing counter
restarts. -/
def Lines.promoteHuan (s : Lines) : Lines :=
  if s.js1 = 2 ∧ s.js2 = 0 then { s.clearShizi with js1 := 3 }
  else { s.clearShizi with js2 := 3 }

/-- A stage 2 that found no island is dropped. -/
def Lines.dropHuan (s : Lines) : Lines :=
  if s.js1 = 2 ∨ s.js2 = 2 then { s with js1 := 0, js2 := 0 } else s

def findHuan3 (img : Image) (s : Lines) : Logged Access Lines := do
  -- the loop stops at its first write, so the stages it tests are those on entry
  let found ← scanDown 100 35 (huan3At img s)
  return (if found.isSome then s.promoteHuan else s).dropHuan

/-! ## `find_huanguai` -/

def leftHuanguaiAt (f : Findline1) (i : Int) : Logged Access Bool :=
  (f.left i).lt 80 <&&> (f.left i).gt (f.left (i + 3)) <&&>
  (f.left i).lt (f.left (i - 3)) <&&> (f.left i).gt (f.left (i + 5)) <&&>
  (f.lflag i).eq 1 <&&> (f.lflag (i + 2)).eq 0 <&&>
  (f.left (i - 3) - f.left (i + 3)).gt 12 <&&> (f.lflag (i - 2)).eq 1 <&&>
  (f.lflag i).eq 1 <&&> (f.lflag (i + 3)).eq 0 <&&>
  (2 * f.left i - f.left (i - 2) - f.left (i + 2)).gt 8

def rightHuanguaiAt (f : Findline1) (i : Int) : Logged Access Bool :=
  (f.right i).gt 70 <&&> (f.right i).lt (f.right (i + 3)) <&&>
  (f.right i).gt (f.right (i - 3)) <&&> (f.right i).lt (f.right (i + 5)) <&&>
  (f.rflag i).eq 1 <&&> (f.rflag (i + 2)).eq 0 <&&>
  (f.right (i - 3) - f.right (i + 3)).lt (pure (-12)) <&&> (f.rflag (i - 2)).eq 1 <&&>
  (f.rflag (i + 3)).eq 0 <&&> (f.rflag i).eq 1 <&&>
  (f.right (i + 2) + f.right (i - 2) - 2 * f.right i).gt 8

def findHuanguai (f1 : Findline1) (f2 : Findline2) : Logged Access Findline2 :=
  forDown 100 35 f2 fun i f2 => do
    if ← Logged.check (f2.lefthuanguaiflag = 0) <&&> leftHuanguaiAt f1 i then
      let c ← f1.left i
      return .done { f2 with lefthuanguaiflag := 1, lefthuanguaiRow := i, lefthuanguaiColumn := c }
    else if ← Logged.check (f2.righthuanguaiflag = 0) <&&> rightHuanguaiAt f1 i then
      let c ← f1.right i
      return .done
        { f2 with righthuanguaiflag := 1, righthuanguaiRow := i, righthuanguaiColumn := c }
    else return .yield f2

end SmartCar
