import SmartCar.FindLines.CornerTests

/-!
# A road and its mirror image

Behind `find_guai` every detector treats the two sides alike. What is recognised of a
road and of its mirror image therefore corresponds exactly where the tests of
`find_guai` agree on the corners that the judgements let through, and on the side at
which a ring opens.
-/

namespace SmartCar

open Imperative Logged

/-! ## What becomes of the corners -/

section Kept

variable {f1 : Findline1} {f2 : Findline2} {s : Lines} {l r : Option Int}

/-- The row of a left corner that `shizi_judge` keeps. -/
def keptLeft (f1 : Findline1) (toppoint : Int) (l : Option Int) : Option Int :=
  l.filter fun i => !(rightRowLoseJudge f1 toppoint i).val

def keptRight (f1 : Findline1) (toppoint : Int) (r : Option Int) : Option Int :=
  r.filter fun i => !(leftRowLoseJudge f1 toppoint i).val

theorem deepTurnOf_withCorners (s : Lines) (l r : Option Int) :
    (deepTurnOf (s.withCorners l r)).val = (deepTurnOf s).val.withCorners l r := by
  have hf1 : (s.withCorners l r).f1 = s.f1 := rfl
  have htop : (s.withCorners l r).f2.toppoint = s.f2.toppoint := rfl
  have hleft : (s.withCorners l r).f2.leftturnflag = s.f2.leftturnflag := rfl
  have hright : (s.withCorners l r).f2.rightturnflag = s.f2.rightturnflag := rfl
  simp only [deepTurnOf, findCurve3, val_bind, val_pure, val_onlyIf, hf1, htop, hleft, hright]
  split
  next =>
    split
    next =>
      split
      next => rfl
      next =>
        split
        next => rfl
        next => rfl
    next => rfl
  next => rfl

theorem filter_eq_ite {found : Option Int} {p : Int → Bool} {d : Prop} [Decidable d]
    (hnone : found = none → ¬ d) (hsome : ∀ i, found = some i → (d ↔ p i = false)) :
    found.filter p = if d then none else found := by
  cases found with
  | none => rw [if_neg (hnone rfl), Option.filter_none]
  | some i =>
      have hi := hsome i rfl
      cases hp : p i with
      | true => rw [if_neg fun hd => absurd (hp.symm.trans (hi.mp hd)) (by decide),
          Option.filter_some_pos hp]
      | false => rw [if_pos (hi.mpr hp), Option.filter_some_neg (by simp [hp])]

theorem keptLeft_eq (h : RowsInside f1 l r) : keptLeft f1 f2.toppoint l =
    if dropsLeft f1 (recordCorners f1 f2 l r) then none else l := by
  apply filter_eq_ite
  · rintro rfl hdrops
    exact absurd hdrops.1 (by simp [recordCorners])
  · rintro i rfl
    have hinside := h.left i rfl
    have hcolumn : ¬ f1.leftline i > 140 := by omega
    simp [dropsLeft, recordCorners, hcolumn]

theorem keptRight_eq (h : RowsInside f1 l r) : keptRight f1 f2.toppoint r =
    if dropsRight f1 (recordCorners f1 f2 l r) then none else r := by
  apply filter_eq_ite
  · rintro rfl hdrops
    exact absurd hdrops.1 (by simp [recordCorners])
  · rintro i rfl
    have hinside := h.right i rfl
    have hcolumn : ¬ f1.rightline i < 20 := by omega
    simp [dropsRight, recordCorners, hcolumn]

theorem shiziJudge_record (h : RowsInside f1 l r) :
    (shiziJudge f1 (recordCorners f1 f2 l r)).val =
      recordCorners f1 f2 (keptLeft f1 f2.toppoint l) (keptRight f1 f2.toppoint r) := by
  rw [shiziJudge_val, keptLeft_eq h, keptRight_eq h]
  split
  next =>
    split
    next => rfl
    next => rfl
  next =>
    split
    next => rfl
    next => rfl

/-- `both_row_lose_judge` takes the flag of a left corner away, not its place. -/
theorem bothRowLoseJudge_left (f1 : Findline1) (f2 : Findline2) :
    (bothRowLoseJudge f1 f2).val.leftguaiflag =
        (if unflagsLeft f1 f2 then 0 else f2.leftguaiflag) ∧
      (bothRowLoseJudge f1 f2).val.leftguaiRow = f2.leftguaiRow ∧
      (bothRowLoseJudge f1 f2).val.leftguaiColumn = f2.leftguaiColumn ∧
      (bothRowLoseJudge f1 f2).val.leftturnflag = f2.leftturnflag ∧
      (bothRowLoseJudge f1 f2).val.toppoint = f2.toppoint := by
  rw [bothRowLoseJudge_val]
  by_cases hl : unflagsLeft f1 f2
  · simp only [hl, if_true]
    split
    next => exact ⟨rfl, rfl, rfl, rfl, rfl⟩
    next => exact ⟨rfl, rfl, rfl, rfl, rfl⟩
  · simp only [hl, if_false]
    split
    next => exact ⟨rfl, rfl, rfl, rfl, rfl⟩
    next => exact ⟨rfl, rfl, rfl, rfl, rfl⟩

/-- Without a corner the judgements leave everything as it is. -/
theorem judgedOf_val (s : Lines) : (judgedOf s).val = (judgeElements s).val := by
  rw [judgedOf, val_onlyIf]
  split
  next => rfl
  next hnone =>
    obtain ⟨hleft, hright⟩ := not_or.mp hnone
    have hhuan : (findHuan1 s).val = s := by
      simp only [findHuan1, val_ite, val_pure]
      rw [if_neg fun h => hleft h.1, if_neg fun h => hright h.2]
    have hjudge : (shiziJudge s.f1 s.f2).val = s.f2 := by
      rw [shiziJudge_val, if_neg fun h => hright h.1, if_neg fun h => hleft h.1]
    have hboth : (bothRowLoseJudge s.f1 s.f2).val = s.f2 := by
      rw [bothRowLoseJudge_val, if_neg fun h => hright h.1, if_neg fun h => hleft h.1]
    simp only [judgeElements, val_bind, val_pure, hhuan, hjudge, hboth]

theorem findHuan1_left_iff (hjs1 : s.js1 = 0) (hjs2 : s.js2 = 0) : (findHuan1 s).val.js1 = 1 ↔
    Stage1 s.f2.leftguaiflag s.f2.rightguaiflag s.f1.rightlineflag s.f2.toppoint := by
  refine ⟨(findHuan1_spec hjs1 hjs2).left, fun hstage => ?_⟩
  simp only [findHuan1, val_ite, val_bind, val_pure]
  rw [if_pos ⟨hstage.corner, hstage.other⟩]
  rcases huan1Stage_spec s.f1.rflag s.f2.toppoint with ⟨-, i, hlo, hhi, hlost⟩ | ⟨hone, -⟩
  · exact absurd hlost (hstage.opposite i hlo hhi)
  · exact hone

theorem secondStageOf_left_iff (h : OneSide 1 s.js1 s.js2) : (secondStageOf s).val.js1 = 2 ↔
      s.js1 = 1 ∧ 3 ≤ countRows (fun i => (leftHuan2At s.f1 i).val) s.f2.toppoint 95 := by
  refine ⟨(huan2_spec h).left, ?_⟩
  rintro ⟨hone, hthree⟩
  have hother : s.js2 = 0 := by
    have hside := h.one
    omega
  obtain ⟨cout, ⟨-, hfew⟩ | ⟨hval, -⟩⟩ := huan2_loop (countsRows_left s.f1) s.f2.toppoint
  · omega
  · rw [secondStageOf, val_onlyIf, if_pos (Or.inl hone)]
    simp [findHuan2, hone, hother, hval]

/-- What `elementsOf` makes of corners at the rows `l` and `r`, on the left. -/
structure LeftSpec (s : Lines) (l r : Option Int) (e : SideElements) : Prop where
  flag : e.guaiflag = (keptLeft s.f1 s.f2.toppoint l).elim 0 fun i =>
    if (bothFoundAround s.f1 i).val = true then 0 else 1
  row : e.guaiRow = (keptLeft s.f1 s.f2.toppoint l).getD 0
  column : e.guaiColumn = (keptLeft s.f1 s.f2.toppoint l).elim 0 s.f1.leftline
  turn : e.turnflag = (deepTurnOf s).val.f2.leftturnflag
  stage : e.js = 0 ∨ e.js = 2
  ring : e.js = 2 ↔ l.isSome = true ∧ r = none ∧
    RingOpens s.f1.leftlineflag s.f1.rightlineflag s.f2.toppoint

theorem deepTurnOf_rest (s : Lines) : ∃ f2 : Findline2, (deepTurnOf s).val = { s with f2 } ∧
    f2.toppoint = s.f2.toppoint := by
  refine ⟨_, rfl, ?_⟩
  exact Returns.onlyIf (Q := fun f2 : Findline2 => f2.toppoint = s.f2.toppoint) rfl fun _ =>
    findCurve3_keeps s.f1 (fun _ _ _ _ _ h => h) rfl

theorem secondStageOf_f2 (s : Lines) : (secondStageOf s).val.f2 = s.f2 := by
  rw [secondStageOf, val_onlyIf]
  split
  next => rfl
  next => rfl

theorem judgeElements_withCorners (h : RowsInside s.f1 l r) :
    (judgeElements (s.withCorners l r)).val =
      { (findHuan1 (s.withCorners l r)).val with
        f2 := (bothRowLoseJudge s.f1 (recordCorners s.f1 s.f2
          (keptLeft s.f1 s.f2.toppoint l) (keptRight s.f1 s.f2.toppoint r))).val } := by
  have hrest := findHuan1_rest (s.withCorners l r)
  simp only [judgeElements, val_bind, val_pure, hrest.1, hrest.2]
  simp only [Lines.withCorners, shiziJudge_record h]

theorem elementsOf_f2 (h : RowsInside s.f1 l r) : (elementsOf (s.withCorners l r)).val.f2 =
    (bothRowLoseJudge s.f1 (recordCorners s.f1 (deepTurnOf s).val.f2
      (keptLeft s.f1 s.f2.toppoint l) (keptRight s.f1 s.f2.toppoint r))).val := by
  obtain ⟨f2, hturn, htop⟩ := deepTurnOf_rest s
  simp only [elementsOf, val_bind, secondStageOf_f2]
  rw [deepTurnOf_withCorners, hturn, judgedOf_val,
    judgeElements_withCorners (s := { s with f2 }) h]
  simp only [htop]

theorem stage1_record : Stage1 (recordCorners f1 f2 l r).leftguaiflag
    (recordCorners f1 f2 l r).rightguaiflag f1.rightlineflag f2.toppoint ↔
      l.isSome = true ∧ r = none ∧ ∀ i, f2.toppoint < i → i ≤ 95 → f1.rightlineflag i ≠ 0 := by
  constructor
  · rintro ⟨hl, hr, hopposite⟩
    refine ⟨?_, ?_, hopposite⟩
    · by_contra hnone
      exact absurd hl (by simp [recordCorners, hnone])
    · cases r with
      | none => rfl
      | some i => exact absurd hr (by simp [recordCorners])
  · rintro ⟨hl, rfl, hopposite⟩
    exact ⟨if_pos hl, rfl, hopposite⟩

theorem leftHuan2At_val (f1 : Findline1) (i : Int) : (leftHuan2At f1 i).val =
    decide (f1.leftlineflag i = 0 ∧ f1.rightlineflag i ≠ 0 ∧ f1.rightlineflag (i + 8) ≠ 0 ∧
      f1.leftlineflag (i + 4) = 1) := by
  simp only [leftHuan2At, val_and, val_eq, val_ne, val_ofNat, lflag_val, rflag_val, Bool.decide_and]

/-- What the judgements leave for the second stage of a left ring. -/
theorem judgeElements_ring (h : RowsInside s.f1 l r) (hjs1 : s.js1 = 0) (hjs2 : s.js2 = 0) :
    OneSide 1 (judgeElements (s.withCorners l r)).val.js1
        (judgeElements (s.withCorners l r)).val.js2 ∧
      (judgeElements (s.withCorners l r)).val.f1 = s.f1 ∧
      (judgeElements (s.withCorners l r)).val.f2.toppoint = s.f2.toppoint ∧
      ((judgeElements (s.withCorners l r)).val.js1 = 1 ↔ l.isSome = true ∧ r = none ∧
        ∀ i, s.f2.toppoint < i → i ≤ 95 → s.f1.rightlineflag i ≠ 0) := by
  have hleft := bothRowLoseJudge_left s.f1 (recordCorners s.f1 s.f2
    (keptLeft s.f1 s.f2.toppoint l) (keptRight s.f1 s.f2.toppoint r))
  rw [judgeElements_withCorners h]
  exact ⟨(findHuan1_spec (s := s.withCorners l r) hjs1 hjs2).stage,
    (findHuan1_rest (s.withCorners l r)).1, hleft.2.2.2.2,
    (findHuan1_left_iff (s := s.withCorners l r) hjs1 hjs2).trans stage1_record⟩

theorem elementsOf_js1 (h : RowsInside s.f1 l r) (hjs1 : s.js1 = 0) (hjs2 : s.js2 = 0) :
    ((elementsOf (s.withCorners l r)).val.js1 = 0 ∨ (elementsOf (s.withCorners l r)).val.js1 = 2) ∧
      ((elementsOf (s.withCorners l r)).val.js1 = 2 ↔ l.isSome = true ∧ r = none ∧
        RingOpens s.f1.leftlineflag s.f1.rightlineflag s.f2.toppoint) := by
  obtain ⟨f2, hturn, htop⟩ := deepTurnOf_rest s
  simp only [elementsOf, val_bind]
  rw [deepTurnOf_withCorners, hturn, judgedOf_val]
  obtain ⟨hstage, hf1, hgtop, hone⟩ := judgeElements_ring (s := { s with f2 }) h hjs1 hjs2
  generalize (judgeElements _).val = t at hstage hf1 hgtop hone ⊢
  refine ⟨(huan2_spec hstage).stage.left, (secondStageOf_left_iff hstage).trans ?_⟩
  rw [hone, hf1, hgtop, htop]
  simp only [leftHuan2At_val]
  constructor
  · rintro ⟨⟨hl, hr, hopposite⟩, hthree⟩
    exact ⟨hl, hr, hopposite, hthree⟩
  · rintro ⟨hl, hr, hopposite, hthree⟩
    exact ⟨⟨hl, hr, hopposite⟩, hthree⟩

theorem elementsOf_left (h : RowsInside s.f1 l r) (hjs1 : s.js1 = 0) (hjs2 : s.js2 = 0) :
    LeftSpec s l r (elementsOf (s.withCorners l r)).val.elements.left := by
  obtain ⟨hstage, hring⟩ := elementsOf_js1 h hjs1 hjs2
  obtain ⟨hflag, hrow, hcolumn, hturn, -⟩ := bothRowLoseJudge_left s.f1
    (recordCorners s.f1 (deepTurnOf s).val.f2 (keptLeft s.f1 s.f2.toppoint l)
      (keptRight s.f1 s.f2.toppoint r))
  rw [← elementsOf_f2 h] at hflag hrow hcolumn hturn
  refine ⟨hflag.trans ?_, hrow, hcolumn, hturn, hstage, hring⟩
  cases keptLeft s.f1 s.f2.toppoint l with
  | none => 
    rw [if_neg fun hdrops => absurd hdrops.1 (by simp [recordCorners])]
    rfl
  | some i => 
    simp only [Option.elim_some]
    by_cases hfound : (bothFoundAround s.f1 i).val = true
    · rw [if_pos ⟨rfl, hfound⟩, if_pos hfound]
    · rw [if_neg fun hdrops => hfound hdrops.2, if_neg hfound]
      rfl

theorem option_eq_of_getD {a b : Option Int} (ha : ∀ i ∈ a, i ≠ 0) (hb : ∀ i ∈ b, i ≠ 0)
    (h : a.getD 0 = b.getD 0) : a = b := by
  cases a with
  | none =>
      cases b with
      | none => rfl
      | some j => exact absurd h.symm (hb j rfl)
  | some i =>
      cases b with
      | none => exact absurd h (ha i rfl)
      | some j => exact congrArg some h

theorem RowsInside.kept (h : RowsInside f1 l r) (toppoint : Int) :
    ∀ i ∈ keptLeft f1 toppoint l, i ≠ 0 :=
  fun i hi => (h.left i (Option.mem_filter_iff.mp hi).1).1

theorem LeftSpec.eq_iff {l' r' : Option Int} {e e' : SideElements} (h : LeftSpec s l r e)
    (h' : LeftSpec s l' r' e') (hrows : RowsInside s.f1 l r) (hrows' : RowsInside s.f1 l' r') :
    e = e' ↔ keptLeft s.f1 s.f2.toppoint l = keptLeft s.f1 s.f2.toppoint l' ∧
      (RingOpens s.f1.leftlineflag s.f1.rightlineflag s.f2.toppoint →
        (l.isSome = true ∧ r = none ↔ l'.isSome = true ∧ r' = none)) := by
  constructor
  · rintro rfl
    refine ⟨option_eq_of_getD (hrows.kept _) (hrows'.kept _) (h.row.symm.trans h'.row),
      fun hopens => ?_⟩
    have hring := h.ring.symm.trans h'.ring
    tauto
  · rintro ⟨hkept, hring⟩
    have hjs : e.js = e'.js := by
      have htwo : e.js = 2 ↔ e'.js = 2 := by
        rw [h.ring, h'.ring]
        tauto
      have hstage := h.stage
      have hstage' := h'.stage
      omega
    ext
    · rw [h.flag, hkept, h'.flag]
    · rw [h.row, hkept, h'.row]
    · rw [h.column, hkept, h'.column]
    · rw [h.turn, h'.turn]
    · exact hjs

end Kept

/-! ## Both sides -/

section Sides

variable {f1 : Findline1} {f2 : Findline2} {s : Lines} {toppoint : Int}

theorem Findline1.mirror_mirror (f1 : Findline1) : f1.mirror.mirror = f1 := by
  simp [Findline1.mirror]

theorem rightInset_mirror (f1 : Findline1) : rightInset f1.mirror = f1.leftline := by
  funext i
  simp [rightInset]

theorem leftGuaiScan_isSome (h : EdgesInside f1) : (leftGuaiScan f1 toppoint).isSome = true ↔
    LeftSees f1.leftline f1.leftlineflag toppoint := by
  refine scanDown_isSome_iff.trans (exists_congr fun i => and_congr_right fun _ =>
    and_congr_right fun hhi => leftGuaiAt_iff h hhi)

theorem rightGuaiScan_isSome (h : EdgesInside f1) : (rightGuaiScan f1 toppoint).isSome = true ↔
    RightSees (rightInset f1) f1.rightlineflag toppoint := by
  refine scanDown_isSome_iff.trans (exists_congr fun i => and_congr_right fun _ =>
    and_congr_right fun hhi => rightGuaiAt_iff h hhi)

theorem mem_leftGuaiScan (h : EdgesInside f1) :
    ∀ i ∈ leftGuaiScan f1 toppoint, i ≠ 0 ∧ 25 ≤ f1.leftline i ∧ f1.leftline i ≤ 134 := by
  intro i hi
  obtain ⟨-, hhi, htest⟩ := scanDown_mem hi
  have hcorner := ((leftGuaiAt_iff h hhi).mp htest).1
  have hlo := hcorner.1
  exact ⟨by omega, (hcorner.inside h hhi).2⟩

theorem mem_rightGuaiScan (h : EdgesInside f1) :
    ∀ i ∈ rightGuaiScan f1 toppoint, i ≠ 0 ∧ 25 ≤ f1.rightline i ∧ f1.rightline i ≤ 134 := by
  intro i hi
  obtain ⟨-, hhi, htest⟩ := scanDown_mem hi
  have hcorner := ((rightGuaiAt_iff h hhi).mp htest).1
  have hlo := hcorner.1
  have hinside := (hcorner.inside h.mirror hhi).2
  simp only [mirror_leftline] at hinside
  omega

theorem scan_inside (h : EdgesInside f1) (toppoint : Int) :
    RowsInside f1 (leftGuaiScan f1 toppoint) (rightGuaiScan f1 toppoint) where
  left := mem_leftGuaiScan h
  right := mem_rightGuaiScan h

/-- The corners that `find_guai` sees on the mirror image, brought back. -/
theorem mirrorScan_inside (h : EdgesInside f1) (toppoint : Int) :
    RowsInside f1 (rightGuaiScan f1.mirror toppoint) (leftGuaiScan f1.mirror toppoint) := by
  have hrows := (scan_inside h.mirror toppoint).mirror
  rwa [Findline1.mirror_mirror] at hrows

/-- A corner is kept where the opposite edge is lost beyond it. -/
theorem rightRowLoseJudge_iff (f1 : Findline1) (toppoint i : Int) :
    (!(rightRowLoseJudge f1 toppoint i).val) = true ↔
      ∃ k, toppoint < k ∧ k ≤ i ∧ f1.rightlineflag k = 0 := by
  have hlost : (!(rightRowLoseJudge f1 toppoint i).val) =
      (scanDown i toppoint fun k => (f1.rflag k).eq 0).val.isSome := by
    simp [rightRowLoseJudge]
  rw [hlost, scanDown_isSome_iff]
  simp

theorem keptLeft_agree_iff (h : EdgesInside f1) :
    keptLeft f1 toppoint (leftGuaiScan f1 toppoint) =
        keptLeft f1 toppoint (rightGuaiScan f1.mirror toppoint) ↔
      ∀ i, toppoint + 4 < i → i ≤ 108 → (∃ k, toppoint < k ∧ k ≤ i ∧ f1.rightlineflag k = 0) →
        CornerAt f1.leftline f1.leftlineflag i →
        ¬ (LeftAsks f1.leftline i ↔ RightAsks f1.leftline i) →
        ∃ j, i < j ∧ j ≤ 108 ∧ CornerAt f1.leftline f1.leftlineflag j ∧
          LeftAsks f1.leftline j ∧ RightAsks f1.leftline j := by
  have hleft : ∀ i, i ≤ 108 → ((leftGuaiAt f1 i).val = true ↔
      CornerAt f1.leftline f1.leftlineflag i ∧ LeftAsks f1.leftline i) :=
    fun i hhi => leftGuaiAt_iff h hhi
  have hright : ∀ i, i ≤ 108 → ((rightGuaiAt f1.mirror i).val = true ↔
      CornerAt f1.leftline f1.leftlineflag i ∧ RightAsks f1.leftline i) := by
    intro i hhi
    rw [rightGuaiAt_iff h.mirror hhi, rightInset_mirror]
    rfl
  have hdiffer : ∀ i, i ≤ 108 → ((leftGuaiAt f1 i).val ≠ (rightGuaiAt f1.mirror i).val ↔
      CornerAt f1.leftline f1.leftlineflag i ∧
        ¬ (LeftAsks f1.leftline i ↔ RightAsks f1.leftline i)) := by
    intro i hhi
    rw [ne_eq, Bool.eq_iff_iff, hleft i hhi, hright i hhi]
    tauto
  -- an edge that is lost beyond a row is lost beyond every nearer row
  have hmono : ∀ i j, i ≤ j → (!(rightRowLoseJudge f1 toppoint i).val) = true →
      (!(rightRowLoseJudge f1 toppoint j).val) = true := by
    intro i j hij hi
    obtain ⟨k, hlo, hk, hlost⟩ := (rightRowLoseJudge_iff f1 toppoint i).mp hi
    exact (rightRowLoseJudge_iff f1 toppoint j).mpr ⟨k, hlo, hk.trans hij, hlost⟩
  refine (scanDown_filter_eq_iff hmono).trans ?_
  constructor
  · intro hagree i hlo hhi hlost hcorner hasks
    obtain ⟨j, hj, hjhi, hpass, hpass'⟩ := hagree i hlo hhi
      ((rightRowLoseJudge_iff f1 toppoint i).mpr hlost) ((hdiffer i hhi).mpr ⟨hcorner, hasks⟩)
    obtain ⟨hcorner', hask⟩ := (hleft j hjhi).mp hpass
    exact ⟨j, hj, hjhi, hcorner', hask, ((hright j hjhi).mp hpass').2⟩
  · intro hagree i hlo hhi hlost hne
    obtain ⟨hcorner, hasks⟩ := (hdiffer i hhi).mp hne
    obtain ⟨j, hj, hjhi, hcorner', hask, hask'⟩ := hagree i hlo hhi
      ((rightRowLoseJudge_iff f1 toppoint i).mp hlost) hcorner hasks
    exact ⟨j, hj, hjhi, (hleft j hjhi).mpr ⟨hcorner', hask⟩,
      (hright j hjhi).mpr ⟨hcorner', hask'⟩⟩

/-- `findline2` before its first detector: no corner, turn or ring stage is set. -/
structure ElementsCleared (s : Lines) : Prop where
  corners : CornersCleared s.f2
  leftturn : s.f2.leftturnflag = 0
  rightturn : s.f2.rightturnflag = 0
  js1 : s.js1 = 0
  js2 : s.js2 = 0

/-- The left side of a road and of its mirror image, brought back. -/
theorem elementsOf_left_iff (hedges : EdgesInside s.f1) (hjs1 : s.js1 = 0) (hjs2 : s.js2 = 0) :
    (elementsOf (s.withCorners (leftGuaiScan s.f1 s.f2.toppoint)
        (rightGuaiScan s.f1 s.f2.toppoint))).val.elements.left =
      (elementsOf (s.withCorners (rightGuaiScan s.f1.mirror s.f2.toppoint)
        (leftGuaiScan s.f1.mirror s.f2.toppoint))).val.elements.left ↔
      SideAgrees s.f1.leftline s.f1.leftlineflag (rightInset s.f1) s.f1.rightlineflag
        s.f2.toppoint := by
  have hrows := scan_inside hedges s.f2.toppoint
  have hrows' := mirrorScan_inside hedges s.f2.toppoint
  rw [(elementsOf_left hrows hjs1 hjs2).eq_iff (elementsOf_left hrows' hjs1 hjs2) hrows hrows',
    keptLeft_agree_iff hedges]
  have hnone : ∀ m : Option Int, m = none ↔ ¬ m.isSome = true := by
    intro m
    cases m <;> simp
  have hmirror : (rightGuaiScan s.f1.mirror s.f2.toppoint).isSome = true ↔
      RightSees s.f1.leftline s.f1.leftlineflag s.f2.toppoint := by
    rw [rightGuaiScan_isSome hedges.mirror, rightInset_mirror]
    rfl
  have hmirror' : (leftGuaiScan s.f1.mirror s.f2.toppoint).isSome = true ↔
      LeftSees (rightInset s.f1) s.f1.rightlineflag s.f2.toppoint := leftGuaiScan_isSome hedges.mirror
  rw [hnone, hnone, leftGuaiScan_isSome hedges, rightGuaiScan_isSome hedges, hmirror, hmirror']
  constructor
  · rintro ⟨hcorner, hring⟩
    exact ⟨hcorner, hring⟩
  · rintro ⟨hcorner, hring⟩
    exact ⟨hcorner, hring⟩

theorem elementsOf_right {l r : Option Int} (h : RowsInside s.f1 l r) :
    (elementsOf (s.withCorners l r)).val.elements.right =
      (elementsOf (s.mirror.withCorners r l)).val.elements.left.mirror := by
  have hinside : CornersInside (s.withCorners l r).f2 := h.corners
  rw [← withCorners_mirror h, elementsOf_mirror hinside, elements_mirror]
  exact (SideElements.mirror_mirror _).symm

theorem elementsOf_right_iff (hedges : EdgesInside s.f1) (hjs1 : s.js1 = 0) (hjs2 : s.js2 = 0) :
    (elementsOf (s.withCorners (leftGuaiScan s.f1 s.f2.toppoint)
        (rightGuaiScan s.f1 s.f2.toppoint))).val.elements.right =
      (elementsOf (s.withCorners (rightGuaiScan s.f1.mirror s.f2.toppoint)
        (leftGuaiScan s.f1.mirror s.f2.toppoint))).val.elements.right ↔
      SideAgrees (rightInset s.f1) s.f1.rightlineflag s.f1.leftline s.f1.leftlineflag
        s.f2.toppoint := by
  have hinjective : Function.Injective SideElements.mirror :=
    Function.LeftInverse.injective SideElements.mirror_mirror
  have hleft := elementsOf_left_iff (s := s.mirror) hedges.mirror hjs2 hjs1
  simp only [mirror_f1, mirror_f2, mirror_toppoint, Findline1.mirror_mirror,
    rightInset_mirror] at hleft
  rw [elementsOf_right (scan_inside hedges _), elementsOf_right (mirrorScan_inside hedges _),
    hinjective.eq_iff, eq_comm]
  exact hleft

theorem ElementsCleared.mirror (h : ElementsCleared s) : ElementsCleared s.mirror where
  corners := h.corners.mirror
  leftturn := h.rightturn
  rightturn := h.leftturn
  js1 := h.js2
  js2 := h.js1

theorem detectElements_val (h : ElementsCleared s) : (detectElements s).val =
    if s.f2.toppoint < 70 ∧ s.f2.toppoint > 5 then
      (elementsOf (s.withCorners (leftGuaiScan s.f1 s.f2.toppoint)
        (rightGuaiScan s.f1 s.f2.toppoint))).val
    else (elementsOf s).val := by
  rw [detectElements, val_bind, val_onlyIf,
    if_pos ⟨h.corners.leftflag, h.corners.rightflag⟩, findGuai_val h.corners]
  split
  next => rfl
  next => rfl

/-- What is recognised of the mirror image is the mirror image of what is recognised
exactly where the tests of `find_guai` agree on both sides. -/
theorem detectElements_mirror_iff (hedges : EdgesInside s.f1) (h : ElementsCleared s) :
    (detectElements s.mirror).val.elements = (detectElements s).val.elements.mirror ↔
      (5 < s.f2.toppoint → s.f2.toppoint < 70 →
        SideAgrees s.f1.leftline s.f1.leftlineflag (rightInset s.f1) s.f1.rightlineflag
            s.f2.toppoint ∧
          SideAgrees (rightInset s.f1) s.f1.rightlineflag s.f1.leftline s.f1.leftlineflag
            s.f2.toppoint) := by
  by_cases hrange : s.f2.toppoint < 70 ∧ s.f2.toppoint > 5
  · have hrange' : s.mirror.f2.toppoint < 70 ∧ s.mirror.f2.toppoint > 5 := hrange
    have hrows := mirrorScan_inside hedges s.f2.toppoint
    have hinside : CornersInside (s.withCorners (rightGuaiScan s.f1.mirror s.f2.toppoint)
      (leftGuaiScan s.f1.mirror s.f2.toppoint)).f2 := hrows.corners
    rw [detectElements_val h, detectElements_val h.mirror, if_pos hrange, if_pos hrange',
      mirror_f1, mirror_f2, mirror_toppoint, ← withCorners_mirror hrows,
      elementsOf_mirror hinside, elements_mirror, Elements.mirror_injective.eq_iff, eq_comm,
      Elements.ext_iff, elementsOf_left_iff hedges h.js1 h.js2,
      elementsOf_right_iff hedges h.js1 h.js2]
    exact ⟨fun hsides _ _ => hsides, fun hsides => hsides hrange.2 hrange.1⟩
  · -- without `find_guai` no detector is left that tells the sides apart
    have hrange' : ¬ (s.mirror.f2.toppoint < 70 ∧ s.mirror.f2.toppoint > 5) := hrange
    have hinside : CornersInside s.f2 :=
      ⟨fun hflag => absurd (hflag.symm.trans h.corners.leftflag) (by decide),
        fun hflag => absurd (hflag.symm.trans h.corners.rightflag) (by decide)⟩
    rw [detectElements_val h, detectElements_val h.mirror, if_neg hrange, if_neg hrange',
      elementsOf_mirror hinside, elements_mirror]
    exact iff_of_true rfl fun hlo hhi => absurd ⟨hhi, hlo⟩ hrange

end Sides

/-! ## A corner on one side only -/

/-- The edges `left` and `right`, found on the rows beyond which they are not lost. -/
def edgesTo (left right : Int → Int) (leftLost rightLost : Int) : Findline1 where
  midline := fun _ => 80
  leftline := fun i => if i ≤ leftLost then 0 else left i
  rightline := fun i => if i ≤ rightLost then 159 else right i
  leftlineflag := fun i => if i ≤ leftLost then 0 else 1
  rightlineflag := fun i => if i ≤ rightLost then 0 else 1

def roadTo (f1 : Findline1) : Lines :=
  { Lines.init with f1, f2 := { Lines.init.f2 with toppoint := 50 } }

theorem edgesTo_inside {left right : Int → Int} (leftLost rightLost : Int)
    (hleft : ∀ i, 25 ≤ left i ∧ left i ≤ 134) (hright : ∀ i, 25 ≤ right i ∧ right i ≤ 134) :
    EdgesInside (edgesTo left right leftLost rightLost) where
  left := by
    intro i _ _
    have hrow := hleft i
    simp only [edgesTo]
    split <;> omega
  right := by
    intro i _ _
    have hrow := hright i
    simp only [edgesTo]
    split <;> omega

theorem roadTo_cleared (f1 : Findline1) : ElementsCleared (roadTo f1) :=
  ⟨⟨rfl, rfl, rfl, rfl, rfl, rfl⟩, rfl, rfl, rfl, rfl⟩

/-- The tests agree on a side if they agree on the corners of both sides. -/
theorem SideAgrees.of_agree {e flag e' flag' : Int → Int} {toppoint : Int}
    (hcorner : ∀ i, CornerAt e flag i → (LeftAsks e i ↔ RightAsks e i))
    (hcorner' : ∀ i, CornerAt e' flag' i → (LeftAsks e' i ↔ RightAsks e' i)) :
    SideAgrees e flag e' flag' toppoint where
  corner := fun i _ _ _ hpeak hdiffer => absurd (hcorner i hpeak) hdiffer
  ring := by
    intro _
    have hsees : LeftSees e flag toppoint ↔ RightSees e flag toppoint :=
      exists_congr fun i => and_congr_right fun _ => and_congr_right fun _ =>
        and_congr_right (hcorner i)
    have hsees' : LeftSees e' flag' toppoint ↔ RightSees e' flag' toppoint :=
      exists_congr fun i => and_congr_right fun _ => and_congr_right fun _ =>
        and_congr_right (hcorner' i)
    rw [hsees, hsees']

/-- A road with a corner at row 80 of its left edge, which is lost from row 75 on. -/
def cornerEdges : Findline1 :=
  edgesTo (fun i => if i = 80 then 50 else if i < 80 then 30 else 40) (fun _ => 119) 75 0

/-- Both tests see the corner. -/
theorem detectElements_mirror_corner :
    (detectElements (roadTo cornerEdges).mirror).val.elements =
      (detectElements (roadTo cornerEdges)).val.elements.mirror := by
  have hleft : ∀ i, CornerAt cornerEdges.leftline cornerEdges.leftlineflag i →
      (LeftAsks cornerEdges.leftline i ↔ RightAsks cornerEdges.leftline i) := by
    intro i hcorner
    have hrow : i = 80 := by
      obtain ⟨-, hpeak, -, -, hfound, hlost, -⟩ := hcorner
      simp only [cornerEdges, edgesTo] at hpeak hfound hlost
      split at hfound
      · omega
      · split at hlost
        · split_ifs at hpeak <;> omega
        · omega
    rw [hrow]
    exact iff_of_true ⟨by decide, by decide, by decide⟩ (by unfold RightAsks; decide)
  have hright : ∀ i, ¬ CornerAt (rightInset cornerEdges) cornerEdges.rightlineflag i := by
    intro i hcorner
    have hpeak := hcorner.2.1
    have hlo := hcorner.1
    simp only [rightInset, cornerEdges, edgesTo] at hpeak
    split at hpeak <;> omega
  have hinside : EdgesInside cornerEdges := by
    refine edgesTo_inside 75 0 (fun i => ?_) fun _ => by decide
    split_ifs <;> omega
  have hright' : ∀ i, CornerAt (rightInset cornerEdges) cornerEdges.rightlineflag i →
      (LeftAsks (rightInset cornerEdges) i ↔ RightAsks (rightInset cornerEdges) i) :=
    fun i hcorner => absurd hcorner (hright i)
  exact (detectElements_mirror_iff hinside (roadTo_cleared cornerEdges)).mpr fun _ _ =>
    ⟨SideAgrees.of_agree hleft hright', SideAgrees.of_agree hright' hleft⟩

/-- The left edge bulges at row 80, in front of a crossing. -/
def bulgingEdges : Findline1 := edgesTo (fun i => if i = 80 then 50 else 40) (fun _ => 119) 75 70

theorem bulgingEdges_inside : EdgesInside bulgingEdges := by
  apply edgesTo_inside
  · intro i
    split <;> omega
  · intro i
    omega

/-- A left corner is reported at row 80, and none on the mirror image. -/
theorem bulgingEdges_notMirrored : ¬ ∀ s : Lines, EdgesInside s.f1 → ElementsCleared s →
    3 ≤ s.f2.toppoint → s.f2.toppoint ≤ 118 →
      (detectElements s.mirror).val.elements = (detectElements s).val.elements.mirror := by
  intro hclaim
  have hown : (detectElements (roadTo bulgingEdges)).val.elements.left = ⟨1, 80, 50, 0, 0⟩ := by
    decide +kernel
  have hmirror : (detectElements (roadTo bulgingEdges).mirror).val.elements.right =
      ⟨0, 0, 0, 0, 0⟩ := by
    decide +kernel
  have hequal := hclaim (roadTo bulgingEdges) bulgingEdges_inside (roadTo_cleared _) (by decide)
    (by decide)
  rw [hequal, Elements.mirror, hown] at hmirror
  exact absurd hmirror (by decide)

end SmartCar
