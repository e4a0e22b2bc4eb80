import SmartCar.FindLines.Bends
import SmartCar.FindLines.Columns
import SmartCar.FindLines.Mirror

/-!
# Small turns and their mirror image

Both blocks that compensate a small turn move the centre line along with the edge that
is left, and by one column on a row that has lost it too. The left block takes the column
of the row below, the right block the one that `findline1` left in the row itself.
-/

namespace SmartCar

open Imperative Logged

/-! ## Rows that are drawn one from the next -/

/-- Row by row towards `t`, `a` is computed by `T` from the row below, and stays at 0 from
the row on that reaches it. -/
def Descends (T : Int → Int → Int) (t r : Int) (a : Int → Int) : Prop :=
  ∀ i, t < i → i ≤ r → a i = if i < r ∧ a (i + 1) = 0 then 0 else max 0 (T i (a (i + 1)))

/-- What row `i + 1` holds if every row moves by its own step `d`. -/
noncomputable def course (d : Int → Int) (r start i : Int) : Int :=
  start - ∑ j ∈ Finset.Ioc i r, d j

section Descends

variable {T T' : Int → Int → Int} {t r : Int} {a b : Int → Int} {d : Int → Int}

/-- Where a descent agrees with another one below row `i`, it agrees in row `i` exactly if
the steps do or 0 has been reached. -/
theorem Descends.eq_iff {i : Int} (ha : Descends T t r a) (hb : Descends T' t r b) (hlo : t < i)
    (hhi : i ≤ r) (hbelow : a (i + 1) = b (i + 1)) : a i = b i ↔
      (¬ (i < r ∧ a (i + 1) = 0) → max 0 (T i (a (i + 1))) = max 0 (T' i (a (i + 1)))) := by
  rw [ha i hlo hhi, hb i hlo hhi, ← hbelow]
  split
  next hzero => exact iff_of_true rfl fun hrun => absurd hzero hrun
  next hrun => exact ⟨fun heq _ => heq, fun hstep => hstep hrun⟩

/-- Two descents from one column agree exactly if their steps do, up to the row at which
they reach 0. -/
theorem Descends.agree_iff (ha : Descends T t r a) (hb : Descends T' t r b)
    (hstart : a (r + 1) = b (r + 1)) : (∀ i, t < i → i ≤ r → a i = b i) ↔
      ∀ i, t < i → i ≤ r → ¬ (i < r ∧ a (i + 1) = 0) →
        max 0 (T i (a (i + 1))) = max 0 (T' i (a (i + 1))) := by
  constructor
  · intro hall i hlo hhi
    refine (ha.eq_iff hb hlo hhi ?_).mp (hall i hlo hhi)
    rcases eq_or_lt_of_le hhi with rfl | hlt
    · exact hstart
    · exact hall (i + 1) (by omega) hlt
  · intro hstep
    have hbelow : ∀ i, i ≤ r → t ≤ i → a (i + 1) = b (i + 1) := by
      intro i hhi
      induction i, hhi using Int.leInductionDown with
      | base => exact fun _ => hstart
      | pred i hhi ih =>
          intro hlo
          rw [show i - 1 + 1 = i by ring]
          exact (ha.eq_iff hb (by omega) hhi (ih (by omega))).mpr (hstep i (by omega) hhi)
    intro i hlo hhi
    exact (ha.eq_iff hb hlo hhi (hbelow i hhi hlo.le)).mpr (hstep i hlo hhi)

theorem course_pred {start i : Int} (hhi : i ≤ r) :
    course d r start (i - 1) = course d r start i - d i := by
  unfold course
  rw [← Finset.insert_Ioc_left_eq_Ioc_sub_one hhi, Finset.sum_insert (by simp)]
  ring

/-- A descent has not reached 0 exactly as long as the sum of its steps has not. -/
theorem Descends.reaches (ha : Descends (fun i x => x - d i) t r a) {i : Int} (hhi : i ≤ r)
    (hlo : t ≤ i) :
    (¬ (i < r ∧ a (i + 1) = 0) ↔ ∀ j, i ≤ j → j < r → 0 < course d r (a (r + 1)) j) ∧
      (¬ (i < r ∧ a (i + 1) = 0) → a (i + 1) = course d r (a (r + 1)) i) := by
  induction i, hhi using Int.leInductionDown with
  | base =>
      refine ⟨⟨fun _ j h₁ h₂ => absurd h₁ (by omega), fun _ h => absurd h.1 (lt_irrefl r)⟩,
        fun _ => ?_⟩
      simp [course]
  | pred i hhi ih =>
      obtain ⟨hiff, hval⟩ := ih (by omega)
      have hrow : a i = if i < r ∧ a (i + 1) = 0 then 0 else max 0 (a (i + 1) - d i) :=
        ha i (by omega) hhi
      have hpred : course d r (a (r + 1)) (i - 1) = course d r (a (r + 1)) i - d i :=
        course_pred hhi
      rw [show i - 1 + 1 = i by ring]
      by_cases hrun : i < r ∧ a (i + 1) = 0
      · rw [if_pos hrun] at hrow
        have hstopped : i - 1 < r ∧ a i = 0 := ⟨by omega, hrow⟩
        refine ⟨iff_of_false (not_not_intro hstopped) fun hall => ?_, absurd hstopped⟩
        exact hiff.mpr (fun j hj => hall j (by omega)) hrun
      · have hall := hiff.mp hrun
        rw [if_neg hrun, hval hrun, ← hpred] at hrow
        have hpos : ¬ (i - 1 < r ∧ a i = 0) ↔ 0 < course d r (a (r + 1)) (i - 1) := by omega
        refine ⟨hpos.trans ⟨fun h j hj hjr => ?_, fun h => h (i - 1) le_rfl (by omega)⟩,
          fun h => ?_⟩
        · rcases eq_or_lt_of_le hj with rfl | hlt
          · exact h
          · exact hall j (by omega) hjr
        · have hthis := hpos.mp h
          omega

end Descends

/-! ## The two blocks -/

/-- The same edges and centre line seen in a mirror. -/
def Findline1.reflect (f : Findline1) : Findline1 :=
  { f.mirror with midline := fun i => 159 - f.midline i }

/-- The same state seen in a mirror. -/
def Lines.reflect (s : Lines) : Lines := { s.mirror with f1 := s.f1.reflect, L := s.R, R := s.L }

/-- The columns by which row `i` moves the centre line of a left turn. -/
def turnStep (f : Findline1) (i : Int) : Int :=
  if f.rightline i = 159 then 1 else f.rightline (i + 1) - f.rightline i

/-- The column from which a left turn at row `r` reaches row `i`. -/
noncomputable def turnCourse (f : Findline1) (r i : Int) : Int :=
  course (turnStep f) r (f.midline (r + 1)) i

section Bent

variable {meets : Int → Bool} {v hi lo t : Int} {f g : Findline1} {found : Option Int}
  {dist : Int → Int} {T : Int → Int → Int}

/-- The distance from the border descends from row to row of a block, where each value drawn
is computed from the row below. -/
theorem Bent.descends
    (h : Bent meets v hi lo (fun g j m => dist m = T j (dist (g.midline (j + 1)))) f g found)
    (hlo : 0 ≤ lo) (hlt : lo ≤ t) (hmeets : ∀ m, meets m = true ↔ dist m ≤ 0) (hv : dist v = 0) :
    Descends T t hi fun i => dist ((g.filled 0
      (if found.getD 0 = 0 then t else found.getD 0) v).midline i) := by
  -- beyond the row `q` the block has filled nothing
  obtain ⟨q, hq, hdrawn, hmet⟩ : ∃ q, (if found.getD 0 = 0 then t else found.getD 0) = q ∧
      (∀ i, t < i → q < i → i ≤ hi →
        dist (g.midline i) = T i (dist (g.midline (i + 1))) ∧ 0 < dist (g.midline i)) ∧
      (t < q → q ≤ hi ∧ T q (dist (g.midline (q + 1))) ≤ 0) := by
    have hpos : ∀ i, found.getD lo < i → i ≤ hi →
        dist (g.midline i) = T i (dist (g.midline (i + 1))) ∧ 0 < dist (g.midline i) := by
      intro i hi₁ hi₂
      obtain ⟨hvalue, hmiss⟩ := h.drawn i hi₁ hi₂
      refine ⟨hvalue, not_le.mp fun hle => ?_⟩
      rw [(hmeets _).mpr hle] at hmiss
      cases hmiss
    cases found with
    | none =>
        exact ⟨t, rfl, fun i hi₁ _ => hpos i (by rw [Option.getD_none]; omega),
          fun h => absurd h (lt_irrefl t)⟩
    | some k =>
        obtain ⟨hk₁, hk₂, -, m, hvalue, hmeet⟩ := h.met k rfl
        refine ⟨k, if_neg (by rw [Option.getD_some]; omega), fun i _ => hpos i, fun _ => ⟨hk₂, ?_⟩⟩
        rw [← hvalue]
        exact (hmeets m).mp hmeet
  have hnear : ∀ j, 0 < j → j ≤ q → (g.filled 0 q v).midline j = v :=
    fun j h₁ h₂ => if_pos ⟨h₁, h₂⟩
  have hfar : ∀ j, q < j → (g.filled 0 q v).midline j = g.midline j :=
    fun j hj => if_neg (by omega)
  rw [hq]
  intro i hi₁ hi₂
  change dist ((g.filled 0 q v).midline i) = if i < hi ∧ dist ((g.filled 0 q v).midline (i + 1)) = 0
    then 0 else max 0 (T i (dist ((g.filled 0 q v).midline (i + 1))))
  rcases lt_trichotomy i q with hlt | rfl | hgt
  · have hend := (hmet (by omega)).1
    rw [hnear i (by omega) hlt.le, hnear (i + 1) (by omega) hlt, hv, if_pos ⟨by omega, rfl⟩]
  · have hstop := (hmet hi₁).2
    rw [hnear i (by omega) le_rfl, hfar (i + 1) (by omega), hv, max_eq_left hstop, ite_self]
  · obtain ⟨hvalue, hpos⟩ := hdrawn i hi₁ hgt hi₂
    have hrun : ¬ (i < hi ∧ dist (g.midline (i + 1)) = 0) := by
      rintro ⟨hlt, hzero⟩
      have hbelow := (hdrawn (i + 1) (by omega) (by omega) hlt).2
      omega
    rw [hfar i hgt, hfar (i + 1) (by omega), if_neg hrun, ← hvalue, max_eq_right hpos.le]

theorem Bent.filled_behind {row : Findline1 → Int → Int → Prop}
    (h : Bent meets v hi lo row f g found) (hlo : 0 ≤ lo) (hhi : t ≤ hi) :
    (g.filled 0 (if found.getD 0 = 0 then t else found.getD 0) v).midline (hi + 1) =
      f.midline (hi + 1) := by
  have hle : (if found.getD 0 = 0 then t else found.getD 0) ≤ hi := by
    cases found with
    | none => exact hhi
    | some k =>
        obtain ⟨hk₁, hk₂, -⟩ := h.met k rfl
        rw [Option.getD_some, if_neg (by omega)]
        exact hk₂
  rw [← h.behind (hi + 1) (by omega)]
  exact if_neg (by omega)

/-- A block whose rows are computed from the row below descends from the row before it. -/
theorem bendFill_descends {target : Findline1 → Int → Logged Access Int} (dist : Int → Int)
    (T : Int → Int → Int) (hlo : 0 ≤ lo) (hlt : lo ≤ t)
    (hmeets : ∀ m, meets m = true ↔ dist m ≤ 0) (hv : dist v = 0)
    (htarget : ∀ g i, SameEdges f g → g.midline i = f.midline i →
      dist (target g i).val = T i (dist (g.midline (i + 1)))) :
    Descends T t hi fun i => dist ((bendFill meets v hi lo target t f 0).val.1.midline i) := by
  have hbent : Bent meets v hi lo (fun g j m => dist m = T j (dist (g.midline (j + 1)))) f
      (bendTrace meets v hi lo target f).val.1 (bendTrace meets v hi lo target f).val.2 := by
    refine bendTrace_spec ?_ fun g i _ _ hsame hrows => htarget g i hsame (hrows i le_rfl)
    intro g i j m m' hij hm
    rw [setMid_midline, if_neg (by omega)]
    exact hm
  rw [bendFill_val]
  exact hbent.descends hlo hlt hmeets hv

theorem bendFill_behind {target : Findline1 → Int → Logged Access Int} (hlo : 0 ≤ lo)
    (hhi : t ≤ hi) :
    (bendFill meets v hi lo target t f 0).val.1.midline (hi + 1) = f.midline (hi + 1) := by
  rw [bendFill_val]
  exact bendTrace_bent.filled_behind hlo hhi

end Bent

section Blocks

variable {s : Lines}

/-- The left block moves every row from the row below. -/
theorem leftTurnBlock_descends (hL : s.L = 0) (htop : 0 ≤ s.f2.toppoint) :
    Descends (fun i x => x - turnStep s.f1 i) s.f2.toppoint s.f2.leftturnRow
        (leftTurnBlock s).val.f1.midline ∧
      (s.f2.toppoint ≤ s.f2.leftturnRow → (leftTurnBlock s).val.f1.midline (s.f2.leftturnRow + 1) =
        s.f1.midline (s.f2.leftturnRow + 1)) := by
  rw [leftTurnBlock, leftBlock_f1, hL]
  refine ⟨bendFill_descends (fun m => m) _ htop le_rfl (by simp [meetsLeft]) rfl ?_,
    bendFill_behind htop⟩
  intro g i hsame _
  simp only [leftTurnTarget, turnStep, val_bind, val_ite, val_eq, val_ofNat, val_sub, right_val,
    mid_val, decide_eq_true_eq, hsame.rightline]
  split
  next => rfl
  next => rfl

/-- The right block, seen in a mirror, moves a row without an edge from where it was. -/
theorem rightTurnBlock_descends (hL : s.L = 0) (htop : 0 ≤ s.f2.toppoint) :
    Descends (fun i x => if s.f1.rightline i = 159 then s.f1.midline i - 1
        else x - turnStep s.f1 i) s.f2.toppoint s.f2.leftturnRow
        (fun i => 159 - (rightTurnBlock s.reflect).val.f1.midline i) ∧
      (s.f2.toppoint ≤ s.f2.leftturnRow →
        159 - (rightTurnBlock s.reflect).val.f1.midline (s.f2.leftturnRow + 1) =
          s.f1.midline (s.f2.leftturnRow + 1)) := by
  have hR : s.reflect.R = 0 := hL
  have htarget : ∀ g i, SameEdges s.f1.reflect g → g.midline i = s.f1.reflect.midline i →
      159 - (rightTurnTarget g i).val = if s.f1.rightline i = 159 then s.f1.midline i - 1
        else 159 - g.midline (i + 1) - turnStep s.f1 i := by
    intro g i hsame hmid
    have hlost : 159 - s.f1.rightline i = 0 ↔ s.f1.rightline i = 159 := by omega
    simp only [rightTurnTarget, turnStep, val_bind, val_ite, val_eq, val_ofNat, val_add, val_sub,
      left_val, mid_val, decide_eq_true_eq, hsame.leftline, hmid, Findline1.reflect,
      mirror_leftline, hlost]
    split
    next => ring
    next => ring
  have hrow : 159 - s.f1.reflect.midline (s.f2.leftturnRow + 1) =
      s.f1.midline (s.f2.leftturnRow + 1) := by
    simp only [Findline1.reflect]
    ring
  rw [rightTurnBlock, rightBlock_f1, hR]
  refine ⟨bendFill_descends (fun m => 159 - m) _ le_rfl htop (by simp [meetsRight]) rfl htarget,
    fun hle => ?_⟩
  exact (congrArg (159 - ·) (bendFill_behind le_rfl hle)).trans hrow

end Blocks

/-! ## The mirror image -/

/-- On the rows of the turn the right block, applied to the mirror image of `s`, draws the
mirror image of what the left block draws. -/
def TurnMirrored (s : Lines) : Prop :=
  ∀ i, s.f2.toppoint < i → i ≤ s.f2.leftturnRow →
    (rightTurnBlock s.reflect).val.f1.midline i = 159 - (leftTurnBlock s).val.f1.midline i

/-- Wherever the turn reaches a row that has lost the right edge before it meets the border,
`findline1` has left the row where the turn comes from, or both lie at the border. -/
def LostRowsFollow (s : Lines) : Prop :=
  ∀ i, s.f2.toppoint < i → i ≤ s.f2.leftturnRow → s.f1.rightline i = 159 →
    (∀ j, i ≤ j → j < s.f2.leftturnRow → 0 < turnCourse s.f1 s.f2.leftturnRow j) →
      s.f1.midline i = turnCourse s.f1 s.f2.leftturnRow i ∨
        s.f1.midline i ≤ 1 ∧ turnCourse s.f1 s.f2.leftturnRow i ≤ 1

/-- The right block mirrors the left one exactly if the rows without the right edge follow
the turn. -/
theorem turn_mirrored_iff (s : Lines) (hL : s.L = 0) (htop : 0 ≤ s.f2.toppoint) :
    TurnMirrored s ↔ LostRowsFollow s := by
  obtain ⟨hleft, hstart⟩ := leftTurnBlock_descends hL htop
  obtain ⟨hright, hstart'⟩ := rightTurnBlock_descends hL htop
  rcases le_or_gt s.f2.leftturnRow s.f2.toppoint with hnone | hrows
  · exact iff_of_true (fun i h₁ h₂ => by omega) fun i h₁ h₂ => by omega
  have hmirror : TurnMirrored s ↔ ∀ i, s.f2.toppoint < i → i ≤ s.f2.leftturnRow →
      (leftTurnBlock s).val.f1.midline i = 159 - (rightTurnBlock s.reflect).val.f1.midline i :=
    forall₃_congr fun i _ _ => by omega
  have hstep : ∀ i x, max 0 (x - turnStep s.f1 i) =
      max 0 (if s.f1.rightline i = 159 then s.f1.midline i - 1 else x - turnStep s.f1 i) ↔
        (s.f1.rightline i = 159 → s.f1.midline i = x ∨ s.f1.midline i ≤ 1 ∧ x ≤ 1) := by
    intro i x
    by_cases hlost : s.f1.rightline i = 159
    · rw [turnStep, if_pos hlost, if_pos hlost]
      omega
    · rw [if_neg hlost]
      exact iff_of_true rfl fun h => absurd h hlost
  rw [hmirror, hleft.agree_iff hright (by rw [hstart hrows.le, hstart' hrows.le])]
  refine forall₃_congr fun i hlo hhi => ?_
  obtain ⟨hreached, hcolumn⟩ := hleft.reaches hhi hlo.le
  rw [hstart hrows.le] at hreached hcolumn
  rw [hstep]
  change (_ ↔ ∀ j, i ≤ j → j < s.f2.leftturnRow → 0 < turnCourse s.f1 s.f2.leftturnRow j) at hreached
  change _ → _ = turnCourse s.f1 s.f2.leftturnRow i at hcolumn
  constructor
  · intro h hlost hcourse
    have hrun := hreached.mpr hcourse
    rw [← hcolumn hrun]
    exact h hrun hlost
  · intro h hrun hlost
    rw [hcolumn hrun]
    exact h hlost (hreached.mp hrun)

/-- The view of a small left turn: the centre line between the edges, the turn at a row
before the far end. -/
structure TurnView (s : Lines) : Prop where
  columns : InColumns s.f1
  between : ∀ i, s.f1.leftline i ≤ s.f1.midline i ∧ s.f1.midline i ≤ s.f1.rightline i
  top : 3 ≤ s.f2.toppoint ∧ s.f2.toppoint ≤ 118
  row : s.f2.toppoint < s.f2.leftturnRow ∧ s.f2.leftturnRow ≤ 115
  fresh : s.L = 0

/-- A road whose left edge is lost from row 80 on and whose right edge is lost from row 60
on, with the far end at row 10. -/
def openingBend : Lines :=
  { Lines.init with
    f1 := { midline := fun i => if i ≤ 80 then 59 else 79
            leftline := fun i => if i ≤ 80 then 0 else 40
            rightline := fun i => if i ≤ 60 then 159 else 119
            leftlineflag := fun i => if i ≤ 80 then 0 else 1
            rightlineflag := fun i => if i ≤ 60 then 0 else 1 }
    f2 := { Lines.init.f2 with toppoint := 10, leftturnflag := 1, leftturnRow := 80 } }

theorem openingBend_view : TurnView openingBend := by
  refine ⟨⟨fun i => ?_, fun i => ?_, fun i => ?_⟩, fun i => ?_, by decide, by decide, rfl⟩
  · simp only [openingBend, IsColumn]
    omega
  · simp only [openingBend, IsColumn]
    omega
  · simp only [openingBend, IsColumn]
    omega
  · simp only [openingBend]
    omega

theorem turn_mirrored_iff_openingBend : TurnMirrored openingBend ↔ LostRowsFollow openingBend :=
  turn_mirrored_iff openingBend rfl (by decide)

/-- On row 60 the left turn goes on from column 79, the right one falls back. -/
theorem openingBend_not_mirrored : ¬ ∀ s, TurnView s → TurnMirrored s := by
  intro hclaim
  have hrow := hclaim openingBend openingBend_view 60 (by decide) (by decide)
  revert hrow
  decide +kernel

end SmartCar
