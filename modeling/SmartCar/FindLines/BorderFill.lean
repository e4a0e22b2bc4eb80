import SmartCar.FindLines.Bends
import SmartCar.FindLines.TurnFlags

/-!
# The rows beyond the border

Eight blocks of `findline2` bend the centre line towards a border and then put the rows that
are left on it. They pass the row to start from in `L` and `R`, which are cleared once a frame.
Six of them start from what their own loop wrote or else from the far end. The exit of a ring
may be handed the row of the ring block of the same frame, and towards the right border it
takes the row of the other side.
-/

namespace SmartCar

open Imperative Logged

/-- Edges and centre line of row `i` lie on the column `v`. -/
def OnRow (v : Int) (f : Findline1) (i : Int) : Prop :=
  f.leftline i = v ∧ f.rightline i = v ∧ f.midline i = v

/-- A block that ends in a fill: its loop over `(lo, hi]`, and the states around it. -/
structure FillBlock where
  meets : Int → Bool
  border : Int
  hi : Int
  lo : Int
  target : Findline1 → Int → Logged Access Int
  before : Lines
  after : Lines

namespace FillBlock

def left (hi lo : Int) (target : Findline1 → Int → Logged Access Int) (before after : Lines) :
    FillBlock :=
  ⟨meetsLeft, 0, hi, lo, target, before, after⟩

def right (hi lo : Int) (target : Findline1 → Int → Logged Access Int) (before after : Lines) :
    FillBlock :=
  ⟨meetsRight, 159, hi, lo, target, before, after⟩

/-- The arrays when the loop of the block ends. -/
def drawn (b : FillBlock) : Findline1 :=
  (bendTrace b.meets b.border b.hi b.lo b.target b.before.f1).val.1

/-- The row at which the loop of the block drives the centre line to the border. -/
def met (b : FillBlock) : Option Int :=
  (bendTrace b.meets b.border b.hi b.lo b.target b.before.f1).val.2

/-- When the block ends, the rows up to the one at which the border was met lie on it, or
else all rows up to the far end. -/
structure Filled (b : FillBlock) : Prop where
  met : ∀ r ∈ b.met, ∀ i, 1 ≤ i → i ≤ r → OnRow b.border b.after.f1 i
  missed : b.met = none → ∀ i, 1 ≤ i → i ≤ b.before.f2.toppoint → OnRow b.border b.after.f1 i

variable {b : FillBlock} {hi lo r q : Int} {target : Findline1 → Int → Logged Access Int}
  {s t : Lines}

theorem bent (b : FillBlock) :
    Bent b.meets b.border b.hi b.lo (fun _ _ _ => True) b.before.f1 b.drawn b.met :=
  bendTrace_bent

theorem onRow_filled {v i : Int} {f : Findline1} (hi : 1 ≤ i) :
    OnRow v (f.filled 0 q v) i ↔ i ≤ q ∨ OnRow v f i := by
  have hpos : 0 < i := by omega
  by_cases hq : i ≤ q <;> simp [OnRow, Findline1.filled, hpos, hq]

/-- A block that fills from row `q` on leaves the rows between `q` and the one it owes. -/
theorem filled_iff (hafter : b.after.f1 = b.drawn.filled 0 q b.border) : b.Filled ↔
    ∀ i, 1 ≤ i → q < i → i ≤ b.met.getD b.before.f2.toppoint → OnRow b.border b.drawn i := by
  have hrow : ∀ i, 1 ≤ i →
      (OnRow b.border b.after.f1 i ↔ (q < i → OnRow b.border b.drawn i)) := by
    intro i hi
    rw [hafter, onRow_filled hi, ← not_lt, Decidable.imp_iff_not_or]
  constructor
  · rintro ⟨hmet, hmissed⟩ i hi hq hle
    refine (hrow i hi).mp ?_ hq
    cases hfound : b.met with
    | none => exact hmissed hfound i hi (by rwa [hfound] at hle)
    | some k => exact hmet k hfound i hi (by rwa [hfound] at hle)
  · intro hall
    constructor
    · intro k hk i hi hle
      exact (hrow i hi).mpr fun hq => hall i hi hq (by rwa [hk])
    · intro hnone i hi hle
      exact (hrow i hi).mpr fun hq => hall i hi hq (by rwa [hnone])

/-- A block that keeps the row its loop wrote only fails where the loop wrote none and the
row it was handed is not 0. -/
theorem filled_of_kept (hlo : 0 ≤ b.lo)
    (hafter : b.after.f1 = (bendFill b.meets b.border b.hi b.lo b.target b.before.f2.toppoint
      b.before.f1 r).val.1) :
    b.Filled ↔ (b.met = none → r ≠ 0 → ∀ i, 1 ≤ i → r < i → i ≤ b.before.f2.toppoint →
      OnRow b.border b.drawn i) := by
  rw [bendFill_val] at hafter
  rw [filled_iff hafter]
  change (∀ i, 1 ≤ i → (if b.met.getD r = 0 then b.before.f2.toppoint else b.met.getD r) < i →
    i ≤ b.met.getD b.before.f2.toppoint → OnRow b.border b.drawn i) ↔ _
  cases hfound : b.met with
  | none =>
      by_cases hr : r = 0
      · simp only [Option.getD_none, hr, if_true]
        exact iff_of_true (fun i _ hlt hle => absurd hle (not_le.mpr hlt))
          fun _ hne => absurd rfl hne
      · simp only [Option.getD_none, hr, if_false]
        exact ⟨fun h _ _ => h, fun h => h trivial hr⟩
  | some k =>
      have hk := (b.bent.met k hfound).1
      simp only [Option.getD_some, show k ≠ 0 by omega, if_false]
      exact iff_of_true (fun i _ hlt hle => absurd hle (not_le.mpr hlt)) fun h => nomatch h

theorem left_filled_iff (hlo : 0 ≤ lo) (hafter : t = (leftBlock hi lo target s).val) :
    (left hi lo target s t).Filled ↔ ((left hi lo target s t).met = none → s.L ≠ 0 →
      ∀ i, 1 ≤ i → s.L < i → i ≤ s.f2.toppoint → OnRow 0 (left hi lo target s t).drawn i) :=
  filled_of_kept hlo (by rw [hafter]; rfl)

theorem left_filled (hlo : 0 ≤ lo) (hL : s.L = 0) (hafter : t = (leftBlock hi lo target s).val) :
    (left hi lo target s t).Filled :=
  (left_filled_iff hlo hafter).mpr fun _ hne => absurd hL hne

theorem right_filled (hlo : 0 ≤ lo) (hR : s.R = 0)
    (hafter : t = (rightBlock hi lo target s).val) : (right hi lo target s t).Filled :=
  (filled_of_kept (r := s.R) hlo (by rw [hafter]; rfl)).mpr fun _ hne => absurd hR hne

end FillBlock

/-! ## The exit of a ring -/

/-- The column that the exit of a left ring draws on a row, as long as it stays on the image. -/
def leftExitCourse (f : Findline1) : Int → Int :=
  courseRow (fun i _ y =>
    if f.rightlineflag i = 0 then y - 2
    else if f.rightline i > f.rightline (i + 1) then y - 3
    else f.rightline i - halfWidth i) 110 f.midline

/-- The column that the exit of a right ring draws on a row. -/
def rightExitCourse (f : Findline1) : Int → Int :=
  courseRow (fun i x y =>
    if f.leftlineflag i = 0 then x + 3
    else if f.leftline i < f.leftline (i + 1) then y + 3
    else f.leftline i + halfWidth i) 110 f.midline

/-- An exit of a left ring that stays on the image is handed the row 0, or finds the rows it
leaves already on the border. -/
def LeftExitFills (s : Lines) : Prop :=
  (∀ r, s.f2.toppoint < r → r ≤ 110 → meetsLeft (leftExitCourse s.f1 r) = false) → s.L ≠ 0 →
    ∀ i, 1 ≤ i → s.L < i → i ≤ s.f2.toppoint → OnRow 0 s.f1 i

/-- The exit of a right ring fills from `L` where it meets the border or `R` is not 0, so it
has to find the rows above `L` already on the border. -/
structure RightExitFills (s : Lines) : Prop where
  met : ∀ r, FirstMeets meetsRight 110 35 (rightExitCourse s.f1) r →
    ∀ i, 1 ≤ i → s.L < i → i ≤ r →
      s.f1.leftline i = 159 ∧ s.f1.rightline i = 159 ∧ (i < r → s.f1.midline i = 159)
  missed : (∀ r, 35 < r → r ≤ 110 → meetsRight (rightExitCourse s.f1 r) = false) → s.R ≠ 0 →
    ∀ i, 1 ≤ i → s.L < i → i ≤ s.f2.toppoint → (i ≤ 35 ∨ 110 < i) ∧ OnRow 159 s.f1 i

section Exit

variable {s t : Lines}

/-- A bend leaves the rows it has not reached as they were. -/
theorem Bent.onRow_iff {meets : Int → Bool} {v hi lo i : Int} {row : Findline1 → Int → Int → Prop}
    {f g : Findline1} {found : Option Int} (h : Bent meets v hi lo row f g found) (w : Int)
    (hi : g.midline i = f.midline i) : OnRow w g i ↔ OnRow w f i := by
  rw [OnRow, OnRow, h.edges.leftline, h.edges.rightline, hi]

theorem leftExitTarget_course (f g : Findline1) (i : Int) (hsame : SameEdges f g) :
    (leftExitTarget g i).val =
      if f.rightlineflag i = 0 then g.midline (i + 2) - 2
      else if f.rightline i > f.rightline (i + 1) then g.midline (i + 2) - 3
      else f.rightline i - halfWidth i := by
  simp only [leftExitTarget, val_bind, val_ite, val_eq, val_and, val_gt, val_ne, val_sub,
    val_ofNat, rflag_val, right_val, mid_val, readHalfWidth_val, hsame.right, hsame.rightline]
  grind

theorem leftExit_missed_iff : (FillBlock.left 110 s.f2.toppoint leftExitTarget s t).met = none ↔
    ∀ r, s.f2.toppoint < r → r ≤ 110 → meetsLeft (leftExitCourse s.f1 r) = false :=
  bendTrace_eq_none_iff (leftExitTarget_course s.f1)

theorem leftExit_filled_iff (htop : 0 ≤ s.f2.toppoint) (hafter : t = (leftExitBlock s).val) :
    (FillBlock.left 110 s.f2.toppoint leftExitTarget s t).Filled ↔ LeftExitFills s := by
  rw [FillBlock.left_filled_iff htop hafter, LeftExitFills, ← leftExit_missed_iff (t := t)]
  refine imp_congr_right fun hmissed => imp_congr_right fun _ => ?_
  refine forall_congr' fun i => imp_congr_right fun _ => imp_congr_right fun _ =>
    imp_congr_right fun hle => ?_
  have hbent := (FillBlock.left 110 s.f2.toppoint leftExitTarget s t).bent
  rw [hmissed] at hbent
  exact hbent.onRow_iff 0 (hbent.ahead i hle (by simp))

theorem rightExitTarget_course (f g : Findline1) (i : Int) (hsame : SameEdges f g) :
    (rightExitTarget g i).val =
      if f.leftlineflag i = 0 then g.midline (i + 1) + 3
      else if f.leftline i < f.leftline (i + 1) then g.midline (i + 2) + 3
      else f.leftline i + halfWidth i := by
  simp only [rightExitTarget, val_bind, val_ite, val_eq, val_and, val_lt, val_ne, val_add,
    val_ofNat, lflag_val, left_val, mid_val, readHalfWidth_val, hsame.left, hsame.leftline]
  grind

theorem rightExitBlock_f1 (hafter : t = (rightExitBlock s).val) :
    let b := FillBlock.right 110 35 rightExitTarget s t
    t.f1 = b.drawn.filled 0 (if b.met.getD s.R = 0 then s.f2.toppoint else s.L) 159 := by
  rw [hafter]
  simp only [rightExitBlock, val_bind, val_pure, bend_val, fillBorder_val]
  rfl

theorem rightExit_met_iff {k : Int} :
    (FillBlock.right 110 35 rightExitTarget s t).met = some k ↔
      FirstMeets meetsRight 110 35 (rightExitCourse s.f1) k :=
  bendTrace_eq_some_iff (rightExitTarget_course s.f1)

theorem rightExit_missed_iff : (FillBlock.right 110 35 rightExitTarget s t).met = none ↔
    ∀ r, 35 < r → r ≤ 110 → meetsRight (rightExitCourse s.f1 r) = false :=
  bendTrace_eq_none_iff (rightExitTarget_course s.f1)

/-- A loop that has met the border at row `r` has drawn that row and left the rows ahead. -/
theorem rightExit_onRow_of_met {r i : Int}
    (hfound : (FillBlock.right 110 35 rightExitTarget s t).met = some r) (hle : i ≤ r) :
    OnRow 159 (FillBlock.right 110 35 rightExitTarget s t).drawn i ↔
      s.f1.leftline i = 159 ∧ s.f1.rightline i = 159 ∧ (i < r → s.f1.midline i = 159) := by
  have hbent := (FillBlock.right 110 35 rightExitTarget s t).bent
  rw [hfound] at hbent
  rcases eq_or_lt_of_le hle with rfl | hlt
  · rw [OnRow, hbent.edges.leftline, hbent.edges.rightline, (hbent.met i rfl).2.2.1]
    simp [FillBlock.right]
  · rw [hbent.onRow_iff _ (hbent.ahead i hle (by simp; omega))]
    simp only [OnRow, hlt, true_imp_iff]
    rfl

/-- A loop that has missed the border has not put any of its own rows on it. -/
theorem rightExit_onRow_of_missed
    (hfound : (FillBlock.right 110 35 rightExitTarget s t).met = none) (i : Int) :
    OnRow 159 (FillBlock.right 110 35 rightExitTarget s t).drawn i ↔
      (i ≤ 35 ∨ 110 < i) ∧ OnRow 159 s.f1 i := by
  have hbent := (FillBlock.right 110 35 rightExitTarget s t).bent
  rw [hfound] at hbent
  by_cases hloop : i ≤ 35 ∨ 110 < i
  · have hmid : (FillBlock.right 110 35 rightExitTarget s t).drawn.midline i =
        s.f1.midline i := hloop.elim (fun h => hbent.ahead i h (by simp)) (hbent.behind i)
    rw [hbent.onRow_iff _ hmid, and_iff_right hloop]
    rfl
  · obtain ⟨-, hmiss⟩ := hbent.drawn i (by simp [FillBlock.right]; omega)
      (by simp [FillBlock.right]; omega)
    refine iff_of_false (fun h => ?_) fun h => hloop h.1
    rw [h.2.2] at hmiss
    have hmeets : meetsRight 159 = true := rfl
    exact absurd (hmeets.symm.trans hmiss) Bool.noConfusion

theorem rightExit_filled_iff (hafter : t = (rightExitBlock s).val) :
    (FillBlock.right 110 35 rightExitTarget s t).Filled ↔ RightExitFills s := by
  rw [FillBlock.filled_iff (rightExitBlock_f1 hafter)]
  cases hfound : (FillBlock.right 110 35 rightExitTarget s t).met with
  | some r =>
      have hfirst := rightExit_met_iff.mp hfound
      have hfar := hfirst.far
      simp only [Option.getD_some, if_neg (show r ≠ 0 by omega)]
      constructor
      · intro hall
        refine ⟨fun k hk i h₁ h₂ hle => ?_, fun hnone => ?_⟩
        · rw [hk.unique hfirst] at hle ⊢
          exact (rightExit_onRow_of_met hfound hle).mp (hall i h₁ h₂ hle)
        · rw [rightExit_missed_iff.mpr hnone] at hfound
          cases hfound
      · intro h i h₁ h₂ hle
        exact (rightExit_onRow_of_met hfound hle).mpr (h.met r hfirst i h₁ h₂ hle)
  | none =>
      have hnone : ∀ k, ¬ FirstMeets meetsRight 110 35 (rightExitCourse s.f1) k := by
        intro k hk
        rw [rightExit_met_iff.mpr hk] at hfound
        cases hfound
      have hmissed := rightExit_missed_iff.mp hfound
      have hrow := rightExit_onRow_of_missed hfound
      by_cases hR : s.R = 0
      · simp only [Option.getD_none, hR, if_true]
        refine iff_of_true (fun i _ hlt hle => absurd hle (not_le.mpr hlt)) ?_
        exact ⟨fun k hk => absurd hk (hnone k), fun _ hne => absurd hR hne⟩
      · simp only [Option.getD_none, hR, if_false]
        constructor
        · exact fun hall => ⟨fun k hk => absurd hk (hnone k),
            fun _ _ i h₁ h₂ hle => (hrow i).mp (hall i h₁ h₂ hle)⟩
        · exact fun h i h₁ h₂ hle => (hrow i).mpr (h.missed hmissed hR i h₁ h₂ hle)

end Exit

/-! ## The blocks of a frame -/

/-- The state in which the exit block starts its loop. -/
def exitStart (fr : Frame) (s : Lines) : Lines :=
  (huanBlock (ringsOf fr (findline1 fr s).val).val).val.clearTurns

/-- The turn compensation after its first block. -/
def leftTurned (t : Lines) : Lines := (onlyIf (t.f2.leftturnflag = 1) leftTurnBlock t).val

/-- The turn compensation after its two blocks towards the left border. -/
def leftDeepTurned (t : Lines) : Lines :=
  (onlyIf ((leftTurned t).f2.leftturnflag = 3) leftDeepBlock (leftTurned t)).val

/-- The turn compensation before its last block. -/
def rightTurned (t : Lines) : Lines :=
  (onlyIf ((leftDeepTurned t).f2.rightturnflag = 1) rightTurnBlock (leftDeepTurned t)).val

/-- The blocks with a fill that a frame runs, each with the states around it. -/
inductive BlockRuns (fr : Frame) (s : Lines) : FillBlock → Prop
  | leftRing (t : Lines) (ht : t = (leftRingPhase (entered fr s)).val)
      (hring : (entered fr s).f2.huanleftflag ≠ 0) (hHL : t.HL = 1) :
      BlockRuns fr s (.left 115 35 leftRingBodyTarget t (leftRingDraw t).val)
  | rightRing (t : Lines) (ht : t = (rightRingPhase (leftRing (entered fr s)).val).val)
      (hring : (leftRing (entered fr s)).val.f2.huanrightflag ≠ 0) (hHR : t.HR = 1) :
      BlockRuns fr s (.right 115 35 rightRingBodyTarget t (rightRingDraw t).val)
  | leftExit (t : Lines) (ht : t = exitStart fr s) (hjs7 : t.js7 = 1) (hjs8 : t.js8 = 0) :
      BlockRuns fr s (.left 110 t.f2.toppoint leftExitTarget t (exitRedraw t).val)
  | rightExit (t : Lines) (ht : t = exitStart fr s) (hjs8 : t.js8 = 1) (hjs7 : t.js7 = 0) :
      BlockRuns fr s (.right 110 35 rightExitTarget t (exitRedraw t).val)
  | leftTurn (t : Lines) (ht : t = exited fr s) (hturn : t.f2.leftturnflag = 1) :
      BlockRuns fr s (.left t.f2.leftturnRow t.f2.toppoint leftTurnTarget t (leftTurned t))
  | leftDeep (t : Lines) (ht : t = leftTurned (exited fr s)) (hturn : t.f2.leftturnflag = 3) :
      BlockRuns fr s (.left 118 0 leftDeepTarget t (leftDeepTurned (exited fr s)))
  | rightTurn (t : Lines) (ht : t = leftDeepTurned (exited fr s))
      (hturn : t.f2.rightturnflag = 1) :
      BlockRuns fr s (.right t.f2.rightturnRow 0 rightTurnTarget t (rightTurned (exited fr s)))
  | rightDeep (t : Lines) (ht : t = rightTurned (exited fr s)) (hturn : t.f2.rightturnflag = 3) :
      BlockRuns fr s (.right 118 0 rightDeepTarget t (turnCompensate (exited fr s)).val)

/-- Every block with a fill that the frame runs does what it owes. -/
def FrameFilled (fr : Frame) (s : Lines) : Prop := ∀ b, BlockRuns fr s b → b.Filled

/-- If the exit block of a ring runs in the frame, `L` and `R` stand as its fill needs them. -/
structure ExitFills (fr : Frame) (s : Lines) : Prop where
  left : (exitStart fr s).js7 = 1 → (exitStart fr s).js8 = 0 → LeftExitFills (exitStart fr s)
  right : (exitStart fr s).js8 = 1 → (exitStart fr s).js7 = 0 → RightExitFills (exitStart fr s)

/-! ### `L` and `R` within a frame -/

/-- No block has written `L` or `R` yet. -/
def Unmet (t : Lines) : Prop := t.L = 0 ∧ t.R = 0

/-- A turn is only flagged where its block is handed the row 0. -/
def TurnsUnmet (L R : Int) (f2 : Findline2) : Prop :=
  (f2.leftturnflag = 0 ∨ L = 0) ∧ (f2.rightturnflag = 0 ∨ R = 0)

theorem turnsUnmet_kept (L R : Int) : TurnKept (TurnsUnmet L R) where
  same := fun h hsame => by rwa [TurnsUnmet, hsame.leftflag, hsame.rightflag]
  withdraw := by
    rintro f2 flagL flagR hL hR ⟨hl, hr⟩
    exact ⟨by simp only; omega, by simp only; omega⟩

theorem NoTurn.unmet {f2 : Findline2} (h : NoTurn f2) (L R : Int) : TurnsUnmet L R f2 :=
  ⟨Or.inl h.1, Or.inl h.2⟩

section Unmet

variable {fr : Frame} {s t : Lines}

theorem entered_unmet (fr : Frame) (s : Lines) : Unmet (entered fr s) := by
  have hdrawing := (stagesOf_drawing fr (findline1 fr s).val).trans ringFlags_drawing
  exact ⟨hdrawing.L, hdrawing.R⟩

theorem leftRingDraw_R : (leftRingDraw s).val.R = s.R := by
  refine Returns.bind (Q := fun t : Lines => t.R = s.R) (S := fun t : Lines => t.R = s.R) ?_
    fun t ht => ?_
  · exact Returns.onlyIf (Q := fun t : Lines => t.R = s.R) rfl fun _ => rfl
  · exact Returns.onlyIf (Q := fun t : Lines => t.R = s.R) ht fun _ => ht

theorem rightRingRedraw_L : (rightRingRedraw s).val.L = s.L := by
  refine Returns.ite (Q := fun t : Lines => t.L = s.L) (fun _ => rfl) fun _ => ?_
  exact Returns.onlyIf (Q := fun t : Lines => t.L = s.L) rfl fun _ => rfl

theorem leftRing_unmet (h : Unmet s) : (leftRing s).val.R = 0 ∧
    TurnsUnmet (leftRing s).val.L (leftRing s).val.R (leftRing s).val.f2 := by
  refine Returns.onlyIf (Q := fun t : Lines => t.R = 0 ∧ TurnsUnmet t.L t.R t.f2)
    ⟨h.2, Or.inr h.1, Or.inr h.2⟩ fun _ => ?_
  refine Returns.bind (Q := fun t : Lines => t.R = 0) ?_ fun t hR => ?_
  · exact leftRingDraw_R.trans h.2
  · refine Returns.bind_any fun f2 => Returns.pure ?_
    split
    · exact ⟨hR, Or.inl rfl, Or.inr hR⟩
    · exact ⟨hR, Or.inl rfl, Or.inr hR⟩

/-- The right side of the ring block neither writes `L` nor flags a left turn. -/
theorem rightRing_unmet (h : TurnsUnmet s.L s.R s.f2) :
    TurnsUnmet (rightRing s).val.L (rightRing s).val.R (rightRing s).val.f2 := by
  refine Returns.onlyIf (Q := fun t : Lines => TurnsUnmet t.L t.R t.f2) h fun _ => ?_
  refine Returns.bind (Q := fun t : Lines => t.f2.leftturnflag = 0 ∨ t.L = 0) ?_ fun t ht => ?_
  · change (rightRingRedraw s).val.f2.leftturnflag = 0 ∨ (rightRingRedraw s).val.L = 0
    rw [rightRingRedraw_redrawn.f2, rightRingRedraw_L]
    exact h.1
  · have hfree : HuanguaiFree fun f2 => f2.leftturnflag = 0 ∨ t.L = 0 := fun _ _ _ _ _ _ _ h => h
    refine (findHuanguai_keeps t.f1 hfree ht).bind fun f2 hf2 => Returns.pure ?_
    split
    · exact ⟨hf2, Or.inl rfl⟩
    · exact ⟨hf2, Or.inl rfl⟩

theorem ringBlock_unmet (img : Image) (h : Unmet s) :
    TurnsUnmet (ringBlock img s).val.L (ringBlock img s).val.R (ringBlock img s).val.f2 := by
  refine Returns.onlyIf (Q := fun t : Lines => TurnsUnmet t.L t.R t.f2) ⟨Or.inr h.1, Or.inr h.2⟩
    fun _ => ?_
  exact findToppoint_turns (turnsUnmet_kept _ _) img _ (rightRing_unmet (leftRing_unmet h).2)

/-- The exit block withdraws every turn, so its own row is not handed on. -/
theorem huanExitBlock_unmet (short : Int) (h : TurnsUnmet s.L s.R s.f2) :
    TurnsUnmet (huanExitBlock short s).val.L (huanExitBlock short s).val.R
      (huanExitBlock short s).val.f2 := by
  refine Returns.onlyIf (Q := fun t : Lines => TurnsUnmet t.L t.R t.f2) h fun _ => ?_
  refine Returns.bind (Q := fun t : Lines => NoTurn t.f2) ?_ fun t ht => ?_
  · exact exitRedraw_redrawn.keeps ⟨rfl, rfl⟩
  · refine Returns.bind_any fun m => Returns.pure ?_
    exact iteInduction (motive := fun u : Lines => TurnsUnmet u.L u.R u.f2)
      (fun _ => NoTurn.unmet ht _ _) fun _ => NoTurn.unmet ht _ _

theorem exited_unmet (fr : Frame) (s : Lines) :
    TurnsUnmet (exited fr s).L (exited fr s).R (exited fr s).f2 := by
  have hrings := ringBlock_unmet fr.image (entered_unmet fr s)
  refine huanExitBlock_unmet fr.shortstraightFlag ?_
  rw [huanBlock_drawing.L, huanBlock_drawing.R]
  exact huanBlock_turns (turnsUnmet_kept _ _) hrings

end Unmet

/-! ### The turn blocks -/

section Turns

variable {t : Lines}

theorem leftTurned_f2 : (leftTurned t).f2 = t.f2 :=
  Returns.onlyIf (Q := fun u : Lines => u.f2 = t.f2) rfl fun _ => rfl

theorem leftDeepTurned_f2 : (leftDeepTurned t).f2 = t.f2 :=
  Returns.onlyIf (Q := fun u : Lines => u.f2 = t.f2) leftTurned_f2 fun _ => leftTurned_f2

/-- The blocks towards the left border do not write `R`. -/
theorem leftDeepTurned_R : (leftDeepTurned t).R = t.R := by
  have hleft : (leftTurned t).R = t.R :=
    Returns.onlyIf (Q := fun u : Lines => u.R = t.R) rfl fun _ => rfl
  exact Returns.onlyIf (Q := fun u : Lines => u.R = t.R) hleft fun _ => hleft

theorem rightTurned_f2 : (rightTurned t).f2 = t.f2 :=
  Returns.onlyIf (Q := fun u : Lines => u.f2 = t.f2) leftDeepTurned_f2 fun _ => leftDeepTurned_f2

theorem leftTurned_none (h : t.f2.leftturnflag ≠ 1) : leftTurned t = t := by
  rw [leftTurned, val_onlyIf, if_neg h]

theorem rightTurned_none (h : t.f2.rightturnflag ≠ 1) : rightTurned t = leftDeepTurned t := by
  rw [rightTurned, val_onlyIf, leftDeepTurned_f2, if_neg h]

theorem turnCompensate_rightDeep (h : t.f2.rightturnflag = 3) :
    (turnCompensate t).val = (rightDeepBlock (rightTurned t)).val := by
  have hturn : t.f2.leftturnflag ≠ 0 ∨ t.f2.rightturnflag ≠ 0 := Or.inr (by omega)
  have hdeep : (rightTurned t).f2.rightturnflag = 3 := by rw [rightTurned_f2, h]
  have hlast : (turnCompensate t).val =
      (onlyIf ((rightTurned t).f2.rightturnflag = 3) rightDeepBlock (rightTurned t)).val := by
    rw [turnCompensate, val_onlyIf, if_pos hturn]
    rfl
  rw [hlast, val_onlyIf, if_pos hdeep]

end Turns

/-! ## Runs -/

section Runs

variable {fr : Frame} {s t : Lines}

theorem leftRingDraw_body (h : t.HL = 1) :
    (leftRingDraw t).val = (leftBlock 115 35 leftRingBodyTarget t).val := by
  have hentry : t.HL ≠ 0 := by omega
  simp only [leftRingDraw, val_bind, val_onlyIf, if_neg hentry, if_pos h]

theorem rightRingDraw_body (h : t.HR = 1) :
    (rightRingDraw t).val = (rightBlock 115 35 rightRingBodyTarget t).val := by
  have hentry : t.HR ≠ 0 := by omega
  simp only [rightRingDraw, if_neg hentry, val_onlyIf, if_pos h]

theorem exitRedraw_left (hjs7 : t.js7 = 1) (hjs8 : t.js8 = 0) :
    (exitRedraw t).val = (leftExitBlock t).val := by
  rw [exitRedraw, val_ite, if_pos ⟨hjs7, hjs8⟩]

theorem exitRedraw_right (hjs8 : t.js8 = 1) (hjs7 : t.js7 = 0) :
    (exitRedraw t).val = (rightExitBlock t).val := by
  have hleft : ¬ (t.js7 = 1 ∧ t.js8 = 0) := by omega
  rw [exitRedraw, val_ite, if_neg hleft, val_ite, if_pos ⟨hjs8, hjs7⟩]

/-- Of the blocks that a frame runs, only the exit of a ring may leave rows off the border. -/
theorem frameFilled_iff (fr : Frame) (h : OnBorder s.f1) : FrameFilled fr s ↔ ExitFills fr s := by
  obtain ⟨-, htop, hborder⟩ := findline1_ensures fr h
  have hhuan := (huanBlock_ensures (ringsOf_ensures fr htop hborder).2).2
  have hstart : 0 ≤ (exitStart fr s).f2.toppoint := le_trans (by decide) hhuan.recorded.top.1
  have hexited := (huanExitBlock_ensures fr.shortstraightFlag hhuan).2
  have hend : 0 ≤ (exited fr s).f2.toppoint := le_trans (by decide) hexited.recorded.top.1
  have hentered := entered_unmet fr s
  obtain ⟨hL, hR⟩ := exited_unmet fr s
  constructor
  · intro hall
    constructor
    · intro hjs7 hjs8
      exact (leftExit_filled_iff hstart (exitRedraw_left hjs7 hjs8)).mp
        (hall _ (.leftExit _ rfl hjs7 hjs8))
    · intro hjs8 hjs7
      exact (rightExit_filled_iff (exitRedraw_right hjs8 hjs7)).mp
        (hall _ (.rightExit _ rfl hjs8 hjs7))
  · rintro ⟨hleft, hright⟩ b hb
    cases hb with
    | leftRing t ht hring hHL =>
        refine FillBlock.left_filled (by decide) ?_ (leftRingDraw_body hHL)
        rw [ht]
        exact hentered.1
    | rightRing t ht hring hHR =>
        refine FillBlock.right_filled (by decide) ?_ (rightRingDraw_body hHR)
        rw [ht]
        exact (leftRing_unmet hentered).1
    | leftExit t ht hjs7 hjs8 =>
        subst ht
        exact (leftExit_filled_iff hstart (exitRedraw_left hjs7 hjs8)).mpr (hleft hjs7 hjs8)
    | rightExit t ht hjs8 hjs7 =>
        subst ht
        exact (rightExit_filled_iff (exitRedraw_right hjs8 hjs7)).mpr (hright hjs8 hjs7)
    | leftTurn t ht hturn =>
        subst ht
        refine FillBlock.left_filled hend (by omega) ?_
        rw [leftTurned, val_onlyIf, if_pos hturn]
        rfl
    | leftDeep t ht hturn =>
        subst ht
        rw [leftTurned_f2] at hturn
        have hnone := leftTurned_none (t := exited fr s) (by omega)
        refine FillBlock.left_filled le_rfl (by rw [hnone]; omega) ?_
        rw [leftDeepTurned, val_onlyIf, leftTurned_f2, if_pos hturn]
        rfl
    | rightTurn t ht hturn =>
        subst ht
        have hflag := hturn
        rw [leftDeepTurned_f2] at hflag
        refine FillBlock.right_filled le_rfl (by rw [leftDeepTurned_R]; omega) ?_
        rw [rightTurned, val_onlyIf, if_pos hturn]
        rfl
    | rightDeep t ht hturn =>
        subst ht
        rw [rightTurned_f2] at hturn
        have hnone := rightTurned_none (t := exited fr s) (by omega)
        refine FillBlock.right_filled le_rfl (by rw [hnone, leftDeepTurned_R]; omega) ?_
        exact turnCompensate_rightDeep hturn

/-- Every block with a fill does what it owes in every frame of a run exactly if the exit
blocks of the run find `L` and `R` as their fills need them. -/
theorem border_filled_iff (frames : List Frame) : Meets FrameFilled nextFrame Lines.init frames ↔
    Meets ExitFills nextFrame Lines.init frames := by
  refine meets_congr (fun s : Lines => OnBorder s.f1)
    (fun fr s h => (processFrame_ensures fr h).2.2) (fun fr s h => frameFilled_iff fr h) ?_ frames
  exact ⟨0, Or.inl rfl, fun _ _ _ => ⟨rfl, rfl, rfl⟩⟩

theorem not_frameFilled {t : Lines} {r : Int} (ht : t = exitStart fr s)
    (hjs : t.js8 = 1 ∧ t.js7 = 0) (hr : 1 ≤ r)
    (hmet : (bendTrace meetsRight 159 110 35 rightExitTarget t.f1).val.2 = some r)
    (hleft : (exitRedraw t).val.f1.leftline r ≠ 159) : ¬ FrameFilled fr s := by
  intro hfilled
  have hblock := hfilled _ (.rightExit t ht hjs.1 hjs.2)
  exact hleft (hblock.met r hmet r hr le_rfl).1

/-- A road on which a right ring is past its far corner. -/
def rightFarRoad : List (Int × Int × Int) := [(70, 0, 130), (67, 30, 130), (31, 35, 130)]

/-- A road on which the exit of a right ring comes into view. -/
def rightExitRoad : List (Int × Int × Int) := [(91, 0, 130), (90, 10, 130), (31, 0, 130)]

/-- The exit block of the third frame, which meets the right border at row 59. -/
def rightExitStart : Lines :=
  (huanBlock (ringsOf (bandFrame rightExitRoad) (bandFindline1 rightExitRoad
    (bandStep rightFarRoad (bandStep rightRingRoad Lines.init)))).val).val.clearTurns

theorem rightExitStart_values : (rightExitStart.js8 = 1 ∧ rightExitStart.js7 = 0) ∧
    (bendTrace meetsRight 159 110 35 rightExitTarget rightExitStart.f1).val.2 = some 59 ∧
    (exitRedraw rightExitStart).val.f1.leftline 59 ≠ 159 := by
  decide +kernel

theorem rightExitStart_eq : rightExitStart = exitStart (bandFrame rightExitRoad)
    (nextFrame (bandFrame rightFarRoad) (nextFrame (bandFrame rightRingRoad) Lines.init)) := by
  rw [exitStart, nextFrame_band, nextFrame_band, findline1_band, rightExitStart]

/-- The first frame enters a right ring, the second one passes its far corner. The exit block
of the third one fills no row, because no block of that frame has written `L`. -/
theorem border_filled_rightExit : ¬ ∀ frames, Meets FrameFilled nextFrame Lines.init frames := by
  intro hclaim
  obtain ⟨hjs, hmet, hleft⟩ := rightExitStart_values
  have hfilled : FrameFilled (bandFrame rightExitRoad)
      (nextFrame (bandFrame rightFarRoad) (nextFrame (bandFrame rightRingRoad) Lines.init)) :=
    (hclaim [bandFrame rightRingRoad, bandFrame rightFarRoad, bandFrame rightExitRoad]).2.2.1
  exact not_frameFilled rightExitStart_eq hjs (by decide) hmet hleft hfilled

end Runs

end SmartCar
