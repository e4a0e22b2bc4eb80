import SmartCar.FindLines.RowAccess
import SmartCar.FindLines.Unchanged

/-!
# Columns of the redrawn centre line

Every loop that redraws the centre line, with what it needs to stay on the
image. The exit blocks and the deep turns always do. The ring blocks clamp on
one side only or not at all, so half a road width has to fit beside the edge
they follow; a small turn moves the centre line along with one edge, so it has
to start on the near side of that edge.
-/

namespace SmartCar

open Imperative Logged

/-- A column of the image. -/
def IsColumn (j : Int) : Prop := 0 ≤ j ∧ j ≤ 159

theorem IsColumn.of_border {v : Int} (hv : v = 0 ∨ v = 159) : IsColumn v := by
  unfold IsColumn
  omega

/-- Edges and centre line are columns of the image on every row. -/
structure InColumns (f : Findline1) : Prop where
  mid : ∀ i, IsColumn (f.midline i)
  left : ∀ i, IsColumn (f.leftline i)
  right : ∀ i, IsColumn (f.rightline i)

theorem InColumns.setMid {f : Findline1} (h : InColumns f) (i : Int) {m : Int} (hm : IsColumn m) :
    InColumns (f.setMid i m) := by
  refine { h with mid := fun j => ?_ }
  rcases eq_or_ne j i with rfl | hne
  · simpa [Findline1.setMid] using hm
  · simpa [Findline1.setMid, hne] using h.mid j

/-! ## Loops -/

section Loops

variable {P : Access → Prop} {meets : Int → Bool} {v hi lo r : Int}
  {target : Findline1 → Int → Logged Access Int} {f : Findline1}

/-- A loop without a clamp needs a target on the image on each of its rows. -/
theorem redraw_inColumns (h : InColumns f) (hall : All P (redraw hi lo target f))
    (htarget : ∀ g i, lo < i → i ≤ hi → InColumns g → SameEdges f g → All P (target g i) →
      IsColumn (target g i).val) : InColumns (redraw hi lo target f).val := by
  refine (foldDown_rule_of_all (fun _ g => SameEdges f g ∧ InColumns g) rfl hall
    ⟨SameEdges.refl f, h⟩ ?_).2
  rintro i g hlo hhi ⟨hsame, hg⟩ hlog
  have hread := ((all_bind _ _).mp hlog).1
  exact ⟨hsame.setMid i _, hg.setMid i (htarget g i hlo hhi hg hsame hread)⟩

/-- The rule of a bend: one obligation for the row that meets the border, one
for the rows before it. -/
theorem bend_rule (I : Int → Findline1 → Prop) (Q : Findline1 → Prop)
    (hall : All P (bend meets v hi lo target f r)) (hinit : I hi f)
    (hmeet : ∀ i g, lo < i → i ≤ hi → I i g → Q (g.setMid i v))
    (hmiss : ∀ i g, lo < i → i ≤ hi → I i g → SameEdges f g → All P (target g i) →
      meets (target g i).val = false → I (i - 1) (g.setMid i (target g i).val))
    (hend : ∀ g, I (min lo hi) g → Q g) : Q (bend meets v hi lo target f r).val.1 := by
  refine forDown_rule_of_all (fun i (st : Findline1 × Int) => SameEdges f st.1 ∧ I i st.1)
    (fun st => Q st.1) hall ⟨SameEdges.refl f, hinit⟩ ?_ fun st hst => hend st.1 hst.2
  rintro i ⟨g, t⟩ hlo hhi ⟨hsame, hI⟩ hlog
  have hread := ((all_bind _ _).mp hlog).1
  simp only [val_bind, val_ite, Findline1.storeMid_val, val_pure]
  split
  next => exact hmeet i g hlo hhi hI
  next hmeets =>
    exact ⟨hsame.setMid i _, hmiss i g hlo hhi hI hsame hread (by simpa using hmeets)⟩

theorem bend_inColumns (hv : IsColumn v) (h : InColumns f)
    (hall : All P (bend meets v hi lo target f r))
    (htarget : ∀ g i, lo < i → i ≤ hi → InColumns g → SameEdges f g → All P (target g i) →
      meets (target g i).val = false → IsColumn (target g i).val) :
    InColumns (bend meets v hi lo target f r).val.1 :=
  bend_rule (fun _ => InColumns) InColumns hall h (fun i _ _ _ hg => hg.setMid i hv)
    (fun i g hlo hhi hg hsame hlog hmiss => hg.setMid i (htarget g i hlo hhi hg hsame hlog hmiss))
    fun _ hg => hg

theorem fillBorder_inColumns (hv : IsColumn v) (h : InColumns f) :
    InColumns (fillBorder r v f).val := by
  rw [fillBorder_val]
  exact ⟨fun j => iteInduction (fun _ => hv) fun _ => h.mid j,
    fun j => iteInduction (fun _ => hv) fun _ => h.left j,
    fun j => iteInduction (fun _ => hv) fun _ => h.right j⟩

end Loops

/-! ## Blocks that clamp on both sides -/

section Clamped

variable {s : Lines} {hi lo : Int} {target : Findline1 → Int → Logged Access Int}

/-- A block towards the left border whose targets stay left of the right
border. -/
theorem leftBlock_inColumns {P : Access → Prop} (h : InColumns s.f1)
    (hall : All P (leftBlock hi lo target s))
    (htarget : ∀ g i, lo < i → i ≤ hi → InColumns g → SameEdges s.f1 g → All P (target g i) →
      (target g i).val ≤ 159) : InColumns (leftBlock hi lo target s).val.f1 := by
  have hbend := ((all_bind _ _).mp ((all_bind _ _).mp hall).1).1
  refine fillBorder_inColumns (IsColumn.of_border (Or.inl rfl)) ?_
  refine bend_inColumns (IsColumn.of_border (Or.inl rfl)) h hbend ?_
  intro g i hlo hhi hg hsame hlog hmiss
  have hle := htarget g i hlo hhi hg hsame hlog
  simp only [meetsLeft, decide_eq_false_iff_not] at hmiss
  exact ⟨by omega, hle⟩

/-- A block towards the right border whose targets stay right of the left
border. -/
theorem rightBlock_inColumns {P : Access → Prop} (h : InColumns s.f1)
    (hall : All P (rightBlock hi lo target s))
    (htarget : ∀ g i, lo < i → i ≤ hi → InColumns g → SameEdges s.f1 g → All P (target g i) →
      0 ≤ (target g i).val) : InColumns (rightBlock hi lo target s).val.f1 := by
  have hbend := ((all_bind _ _).mp ((all_bind _ _).mp hall).1).1
  refine fillBorder_inColumns (IsColumn.of_border (Or.inr rfl)) ?_
  refine bend_inColumns (IsColumn.of_border (Or.inr rfl)) h hbend ?_
  intro g i hlo hhi hg hsame hlog hmiss
  have hge := htarget g i hlo hhi hg hsame hlog
  simp only [meetsRight, decide_eq_false_iff_not] at hmiss
  exact ⟨hge, by omega⟩

theorem leftExitBlock_inColumns (h : InColumns s.f1) (htop : 3 ≤ s.f2.toppoint) :
    InColumns (leftExitBlock s).val.f1 := by
  refine leftBlock_inColumns h (all_true _) ?_
  intro g i hlo hhi hg _ _
  have hmid := hg.mid (i + 2)
  have hright := hg.right i
  have hhalf := halfWidth_bounds i (by omega) (by omega)
  unfold IsColumn at hmid hright
  simp only [leftExitTarget, val_bind, val_ite]
  split
  next => simp; omega
  next => split <;> simp <;> omega

theorem rightExitBlock_inColumns (h : InColumns s.f1) : InColumns (rightExitBlock s).val.f1 := by
  have hbend : InColumns (bend meetsRight 159 110 35 rightExitTarget s.f1 s.R).val.1 := by
    refine bend_inColumns (IsColumn.of_border (Or.inr rfl)) h (all_true _) ?_
    intro g i hlo hhi hg _ _ hmiss
    have hmid₁ := hg.mid (i + 1)
    have hmid₂ := hg.mid (i + 2)
    have hleft := hg.left i
    have hhalf := halfWidth_bounds i (by omega) (by omega)
    unfold IsColumn at hmid₁ hmid₂ hleft
    simp only [meetsRight, decide_eq_false_iff_not] at hmiss
    refine ⟨?_, by omega⟩
    simp only [rightExitTarget, val_bind, val_ite]
    split
    next => simp; omega
    next => split <;> simp <;> omega
  exact fillBorder_inColumns (IsColumn.of_border (Or.inr rfl)) hbend

theorem leftDeepBlock_inColumns (h : InColumns s.f1) : InColumns (leftDeepBlock s).val.f1 := by
  refine leftBlock_inColumns h (all_true _) fun g i _ _ _ _ _ => ?_
  rw [leftDeepTarget_val]
  exact (clampColumn_mem _).2

theorem rightDeepBlock_inColumns (h : InColumns s.f1) : InColumns (rightDeepBlock s).val.f1 := by
  refine rightBlock_inColumns h (all_true _) fun g i _ _ hg _ _ => ?_
  have hleft := hg.left i
  unfold IsColumn at hleft
  simp [rightDeepTarget]
  omega

end Clamped

/-! ## Rings -/

/-- Half a road width fits beside the edge of every row that reads the table;
`room` is the number of columns that the row has. -/
def HalfFits (room : Int → Int) : Access → Prop
  | .halfWidth i => halfWidth i ≤ room i
  | _ => True

instance (room : Int → Int) : DecidablePred (HalfFits room) := fun e =>
  match e with
  | .halfWidth i => inferInstanceAs (Decidable (halfWidth i ≤ room i))
  | .midline _ | .leftline _ | .rightline _ | .leftlineflag _ | .rightlineflag _ | .pixel _ _ =>
      isTrue trivial

/-- The rows on which a left ring is drawn from an edge have room: left of the
right edge while `HL` is 0, right of the left edge afterwards. -/
def LeftRingRoom (s : Lines) : Prop :=
  All (HalfFits (if s.HL = 0 then s.f1.rightline else fun i => 159 - s.f1.leftline i))
    (leftRingDraw s)

instance (s : Lines) : Decidable (LeftRingRoom s) := inferInstanceAs (Decidable (All _ _))

/-- The rows on which a right ring is drawn from an edge have room: right of the
left edge while `HR` is 0, left of the right edge afterwards. -/
def RightRingRoom (s : Lines) : Prop :=
  All (HalfFits (if s.HR = 0 then fun i => 159 - s.f1.leftline i
    else fun i => s.f1.rightline (i + 1))) (rightRingDraw s)

instance (s : Lines) : Decidable (RightRingRoom s) := inferInstanceAs (Decidable (All _ _))

section Rings

variable {s : Lines} {g : Findline1} {i : Int} {room : Int → Int}

theorem leftRingEntryTarget_column (hg : InColumns g) (hlo : 0 ≤ i) (hhi : i ≤ 119)
    (hroom : All (HalfFits room) (leftRingEntryTarget g i)) (hedge : room i ≤ g.rightline i) :
    IsColumn (leftRingEntryTarget g i).val := by
  have hmid := hg.mid (i + 1)
  have hright := hg.right i
  have hhalf := halfWidth_bounds i hlo hhi
  simp only [leftRingEntryTarget, val_bind, val_ite, all_bind, all_ite] at hroom ⊢
  split at hroom
  next hlost => rw [if_pos hlost]; exact hmid
  next hlost =>
    rw [if_neg hlost]
    simp [HalfFits] at hroom
    unfold IsColumn at *
    simp
    omega

theorem rightRingEntryTarget_column (hg : InColumns g) (hlo : 0 ≤ i) (hhi : i ≤ 119)
    (hroom : All (HalfFits room) (rightRingEntryTarget g i))
    (hedge : room i ≤ 159 - g.leftline i) : IsColumn (rightRingEntryTarget g i).val := by
  have hmid := hg.mid (i + 1)
  have hleft := hg.left i
  have hhalf := halfWidth_bounds i hlo hhi
  simp only [rightRingEntryTarget, val_bind, val_ite, all_bind, all_ite] at hroom ⊢
  split at hroom
  next hlost => rw [if_pos hlost]; exact hmid
  next hlost =>
    rw [if_neg hlost]
    simp [HalfFits] at hroom
    unfold IsColumn at *
    simp
    omega

theorem leftRingBodyTarget_le (hg : InColumns g)
    (hroom : All (HalfFits room) (leftRingBodyTarget g i)) (hedge : room i ≤ 159 - g.leftline i) :
    (leftRingBodyTarget g i).val ≤ 159 := by
  have hmid₁ := hg.mid (i + 1)
  have hmid₂ := hg.mid (i + 2)
  unfold IsColumn at hmid₁ hmid₂
  simp only [leftRingBodyTarget, val_bind, val_ite, all_bind, all_ite] at hroom ⊢
  split
  next => simp; omega
  next hfar =>
    rw [if_neg hfar] at hroom
    split
    next => simp; omega
    next hnear =>
      rw [if_neg hnear] at hroom
      simp [HalfFits] at hroom ⊢
      omega

theorem rightRingBodyTarget_nonneg (hg : InColumns g)
    (hroom : All (HalfFits room) (rightRingBodyTarget g i)) (hedge : room i ≤ g.rightline (i + 1)) :
    0 ≤ (rightRingBodyTarget g i).val := by
  have hmid₁ := hg.mid (i + 1)
  have hmid₂ := hg.mid (i + 2)
  unfold IsColumn at hmid₁ hmid₂
  simp only [rightRingBodyTarget, val_bind, val_ite, all_bind, all_ite] at hroom ⊢
  split
  next => simp; omega
  next hfar =>
    rw [if_neg hfar] at hroom
    split
    next => simp; omega
    next hnear =>
      rw [if_neg hnear] at hroom
      simp [HalfFits] at hroom ⊢
      omega

theorem leftRingDraw_inColumns (h : InColumns s.f1) (htop : 3 ≤ s.f2.toppoint)
    (hroom : LeftRingRoom s) : InColumns (leftRingDraw s).val.f1 := by
  unfold LeftRingRoom at hroom
  by_cases hphase : s.HL = 0
  · -- the redrawn state still has `HL = 0`, so the second block does not run
    rw [if_pos hphase] at hroom
    simp only [leftRingDraw, onlyIf, if_pos hphase] at hroom ⊢
    have hfirst := ((all_bind _ _).mp ((all_bind _ _).mp hroom).1).1
    have hdrawn := redraw_inColumns h hfirst fun g i hlo hhi hg hsame hlog =>
      leftRingEntryTarget_column hg (by omega) (by omega) hlog (by rw [hsame.rightline])
    simpa [hphase] using hdrawn
  · rw [if_neg hphase] at hroom
    simp only [leftRingDraw, onlyIf, if_neg hphase] at hroom ⊢
    have hrest := ((all_bind _ _).mp hroom).2
    simp only [val_pure] at hrest
    by_cases hbody : s.HL = 1
    · simp only [val_bind, val_pure, if_pos hbody] at hrest ⊢
      exact leftBlock_inColumns h hrest fun g i hlo hhi hg hsame hlog =>
        leftRingBodyTarget_le hg hlog (by rw [hsame.leftline])
    · simpa [hbody] using h

theorem rightRingDraw_inColumns (h : InColumns s.f1) (htop : 3 ≤ s.f2.toppoint)
    (hroom : RightRingRoom s) : InColumns (rightRingDraw s).val.f1 := by
  unfold RightRingRoom at hroom
  by_cases hphase : s.HR = 0
  · rw [if_pos hphase] at hroom
    simp only [rightRingDraw, if_pos hphase] at hroom ⊢
    have hfirst := ((all_bind _ _).mp hroom).1
    exact redraw_inColumns h hfirst fun g i hlo hhi hg hsame hlog =>
      rightRingEntryTarget_column hg (by omega) (by omega) hlog (by rw [hsame.leftline])
  · rw [if_neg hphase] at hroom
    simp only [rightRingDraw, onlyIf, if_neg hphase] at hroom ⊢
    by_cases hbody : s.HR = 1
    · simp only [if_pos hbody] at hroom ⊢
      exact rightBlock_inColumns h hroom fun g i hlo hhi hg hsame hlog =>
        rightRingBodyTarget_nonneg hg hlog (by rw [hsame.rightline])
    · simpa [hbody] using h

end Rings

/-! ## Small turns -/

/-- The centre line of row `i` moved along with the right edge from row `r + 1`. -/
def leftTurnShift (f : Findline1) (r i : Int) : Int :=
  f.midline (r + 1) - (f.rightline (r + 1) - f.rightline i)

/-- The centre line of row `i` moved along with the left edge from row `r + 1`. -/
def rightTurnShift (f : Findline1) (r i : Int) : Int :=
  f.midline (r + 1) + (f.leftline i - f.leftline (r + 1))

/-- Until the right edge is lost or the left border is met, the moved centre
line stays left of the right border. -/
def LeftTurnRoom (f : Findline1) (r toppoint : Int) : Prop :=
  ∀ i, toppoint < i → i ≤ r → (∀ k, i ≤ k → k ≤ r → f.rightline k ≠ 159) →
    (∀ k, i < k → k ≤ r → 0 < leftTurnShift f r k) → leftTurnShift f r i ≤ 159

/-- Until the left edge is lost or the right border is met, the moved centre
line stays right of the left border. -/
def RightTurnRoom (f : Findline1) (r : Int) : Prop :=
  ∀ i, 0 < i → i ≤ r → (∀ k, i ≤ k → k ≤ r → f.leftline k ≠ 0) →
    (∀ k, i < k → k ≤ r → rightTurnShift f r k < 159) → 0 ≤ rightTurnShift f r i

section Turns

variable {s : Lines} {f g : Findline1} {r i : Int}

theorem LeftTurnRoom.of_le (h : InColumns f) (hle : f.midline (r + 1) ≤ f.rightline (r + 1))
    (toppoint : Int) : LeftTurnRoom f r toppoint := by
  intro i _ _ _ _
  have hright := (h.right i).2
  unfold leftTurnShift
  omega

theorem RightTurnRoom.of_le (h : InColumns f) (hle : f.leftline (r + 1) ≤ f.midline (r + 1)) :
    RightTurnRoom f r := by
  intro i _ _ _ _
  have hleft := (h.left i).1
  unfold rightTurnShift
  omega

/-- Row `i + 1` during a small left turn: the centre line is left of the right
edge, or it has only been moved along with that edge. -/
def LeftTurned (f g : Findline1) (r i : Int) : Prop :=
  g.midline (i + 1) ≤ f.rightline (i + 1) ∨ g.midline (i + 1) = leftTurnShift f r (i + 1) ∧
    ∀ k, i < k → k ≤ r → f.rightline k ≠ 159 ∧ 0 < leftTurnShift f r k

/-- Row `i + 1` during a small right turn. -/
def RightTurned (f g : Findline1) (r i : Int) : Prop :=
  f.leftline (i + 1) ≤ g.midline (i + 1) ∨ g.midline (i + 1) = rightTurnShift f r (i + 1) ∧
    ∀ k, i < k → k ≤ r → f.leftline k ≠ 0 ∧ rightTurnShift f r k < 159

theorem leftTurn_step {toppoint : Int} (hroom : LeftTurnRoom f r toppoint) (hlo : toppoint < i)
    (hhi : i ≤ r) (hg : InColumns g) (hsame : SameEdges f g) (hturned : LeftTurned f g r i)
    (hmiss : 0 < (leftTurnTarget g i).val) : (leftTurnTarget g i).val ≤ 159 ∧
      LeftTurned f (g.setMid i (leftTurnTarget g i).val) r (i - 1) := by
  have hmid := (hg.mid (i + 1)).2
  have hright := (hg.right i).2
  simp only [leftTurnTarget, val_bind, val_ite, val_eq, right_val, mid_val, val_sub, val_ofNat,
    decide_eq_true_eq, hsame.rightline] at hmiss hright ⊢
  simp only [LeftTurned, Findline1.setMid, show i - 1 + 1 = i by ring, Function.update_self]
  split at hmiss
  next hlost =>
    rw [if_pos hlost]
    exact ⟨by omega, Or.inl (by omega)⟩
  next hseen =>
    rw [if_neg hseen]
    rcases hturned with hle | ⟨hshift, hbefore⟩
    · exact ⟨by omega, Or.inl (by omega)⟩
    · -- moved along with the edge up to here, and by this row's shift once more
      have heq : g.midline (i + 1) - (f.rightline (i + 1) - f.rightline i) =
          leftTurnShift f r i := by
        rw [hshift]
        unfold leftTurnShift
        ring
      rw [heq] at hmiss ⊢
      have hrows : ∀ k, i - 1 < k → k ≤ r → f.rightline k ≠ 159 ∧ 0 < leftTurnShift f r k := by
        intro k hk hkr
        rcases eq_or_ne k i with rfl | hne
        · exact ⟨hseen, hmiss⟩
        · exact hbefore k (by omega) hkr
      exact ⟨hroom i hlo hhi (fun k hk hkr => (hrows k (by omega) hkr).1)
        fun k hk hkr => (hrows k (by omega) hkr).2, Or.inr ⟨rfl, hrows⟩⟩

theorem rightTurn_step (hroom : RightTurnRoom f r) (hlo : 0 < i) (hhi : i ≤ r)
    (hg : InColumns g) (hsame : SameEdges f g) (hturned : RightTurned f g r i)
    (hmiss : (rightTurnTarget g i).val < 159) : 0 ≤ (rightTurnTarget g i).val ∧
      RightTurned f (g.setMid i (rightTurnTarget g i).val) r (i - 1) := by
  have hmid := (hg.mid i).1
  have hleft := (hg.left i).1
  simp only [rightTurnTarget, val_bind, val_ite, val_eq, left_val, mid_val, val_add, val_sub,
    val_ofNat, decide_eq_true_eq, hsame.leftline] at hmiss hleft ⊢
  simp only [RightTurned, Findline1.setMid, show i - 1 + 1 = i by ring, Function.update_self]
  split at hmiss
  next hlost =>
    rw [if_pos hlost]
    exact ⟨by omega, Or.inl (by omega)⟩
  next hseen =>
    rw [if_neg hseen]
    rcases hturned with hle | ⟨hshift, hbefore⟩
    · exact ⟨by omega, Or.inl (by omega)⟩
    · have heq : g.midline (i + 1) + (f.leftline i - f.leftline (i + 1)) =
          rightTurnShift f r i := by
        rw [hshift]
        unfold rightTurnShift
        ring
      rw [heq] at hmiss ⊢
      have hrows : ∀ k, i - 1 < k → k ≤ r → f.leftline k ≠ 0 ∧ rightTurnShift f r k < 159 := by
        intro k hk hkr
        rcases eq_or_ne k i with rfl | hne
        · exact ⟨hseen, hmiss⟩
        · exact hbefore k (by omega) hkr
      exact ⟨hroom i hlo hhi (fun k hk hkr => (hrows k (by omega) hkr).1)
        fun k hk hkr => (hrows k (by omega) hkr).2, Or.inr ⟨rfl, hrows⟩⟩

theorem leftTurnBlock_inColumns (h : InColumns s.f1)
    (hroom : LeftTurnRoom s.f1 s.f2.leftturnRow s.f2.toppoint) :
    InColumns (leftTurnBlock s).val.f1 := by
  refine fillBorder_inColumns (IsColumn.of_border (Or.inl rfl)) ?_
  refine bend_rule (fun i g => InColumns g ∧ LeftTurned s.f1 g s.f2.leftturnRow i) InColumns
    (all_true _) ⟨h, Or.inr ⟨?_, fun k h₁ h₂ => absurd h₁ (by omega)⟩⟩ ?_ ?_ fun g hg => hg.1
  · unfold leftTurnShift
    ring
  · exact fun i g _ _ hg => hg.1.setMid i (IsColumn.of_border (Or.inl rfl))
  · rintro i g hlo hhi ⟨hg, hturned⟩ hsame - hmiss
    simp only [meetsLeft, decide_eq_false_iff_not, not_le] at hmiss
    obtain ⟨hle, hnext⟩ := leftTurn_step hroom hlo hhi hg hsame hturned hmiss
    exact ⟨hg.setMid i ⟨by omega, hle⟩, hnext⟩

theorem rightTurnBlock_inColumns (h : InColumns s.f1)
    (hroom : RightTurnRoom s.f1 s.f2.rightturnRow) : InColumns (rightTurnBlock s).val.f1 := by
  refine fillBorder_inColumns (IsColumn.of_border (Or.inr rfl)) ?_
  refine bend_rule (fun i g => InColumns g ∧ RightTurned s.f1 g s.f2.rightturnRow i) InColumns
    (all_true _) ⟨h, Or.inr ⟨?_, fun k h₁ h₂ => absurd h₁ (by omega)⟩⟩ ?_ ?_ fun g hg => hg.1
  · unfold rightTurnShift
    ring
  · exact fun i g _ _ hg => hg.1.setMid i (IsColumn.of_border (Or.inr rfl))
  · rintro i g hlo hhi ⟨hg, hturned⟩ hsame - hmiss
    simp only [meetsRight, decide_eq_false_iff_not, not_le] at hmiss
    obtain ⟨hge, hnext⟩ := rightTurn_step hroom hlo hhi hg hsame hturned hmiss
    exact ⟨hg.setMid i ⟨hge, by omega⟩, hnext⟩

/-- At most one turn is flagged. -/
def OneTurn (f2 : Findline2) : Prop := f2.leftturnflag = 0 ∨ f2.rightturnflag = 0

/-- The small turn that is flagged, if any, has room. -/
def TurnRoom (s : Lines) : Prop :=
  (s.f2.leftturnflag = 1 → LeftTurnRoom s.f1 s.f2.leftturnRow s.f2.toppoint) ∧
    (s.f2.rightturnflag = 1 → RightTurnRoom s.f1 s.f2.rightturnRow)

/-- Until the blocks of a right turn the centre line is as before unless the turn
is a left one. -/
structure RightTurnKept (s t : Lines) : Prop where
  f2 : t.f2 = s.f2
  columns : InColumns t.f1
  f1 : s.f2.rightturnflag ≠ 0 → t.f1 = s.f1

theorem turnCompensate_inColumns (h : InColumns s.f1) (hone : OneTurn s.f2) (hroom : TurnRoom s) :
    InColumns (turnCompensate s).val.f1 := by
  have hleft : s.f2.leftturnflag ≠ 0 → s.f2.rightturnflag = 0 := hone.resolve_left
  refine Returns.onlyIf (Q := fun t : Lines => InColumns t.f1) h fun _ => ?_
  refine Returns.bind (Q := RightTurnKept s) ?_ fun t ht => ?_
  · exact Returns.onlyIf ⟨rfl, h, fun _ => rfl⟩ fun hturn =>
      ⟨rfl, leftTurnBlock_inColumns h (hroom.1 hturn), fun hr => absurd (hleft (by omega)) hr⟩
  refine Returns.bind (Q := RightTurnKept s) ?_ fun u hu => ?_
  · exact Returns.onlyIf ht fun hturn => ⟨ht.f2, leftDeepBlock_inColumns ht.columns,
      fun hr => absurd (hleft (by rw [← ht.f2]; omega)) hr⟩
  refine Returns.bind (Q := fun t : Lines => InColumns t.f1) ?_ fun t ht => ?_
  · refine Returns.onlyIf (Q := fun t : Lines => InColumns t.f1) hu.columns fun hturn =>
      rightTurnBlock_inColumns hu.columns ?_
    rw [hu.f2] at hturn ⊢
    rw [hu.f1 (by omega)]
    exact hroom.2 hturn
  · exact Returns.onlyIf (Q := fun t : Lines => InColumns t.f1) ht fun _ => rightDeepBlock_inColumns ht

end Turns

end SmartCar
