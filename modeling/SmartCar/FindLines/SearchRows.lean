import SmartCar.FindLines.EdgeLaws
import SmartCar.FindLines.Findline2

/-!
# The rows that the searches touch

Every test of a single row looks a fixed number of rows back and ahead. Given a
far end in range, the searches of `findline2` stay on the 120 rows and record
corners and turns on rows of their own range.
-/

namespace SmartCar

open Imperative Logged

/-! ## Tests of a single row -/

section Tests

variable (img : Image) (s : Lines) (f : Findline1) (i : Int)

theorem inRows_iff (e : Access) : e.InRows ↔ 0 ≤ e.row ∧ e.row ≤ 119 := Iff.rfl

attribute [local simp] Access.row inRows_iff

theorem leftGuaiAt_inRows (hlo : 5 ≤ i) (hhi : i ≤ 114) : All Access.InRows (leftGuaiAt f i) := by
  simp [leftGuaiAt]
  omega

theorem rightGuaiAt_inRows (hlo : 5 ≤ i) (hhi : i ≤ 114) :
    All Access.InRows (rightGuaiAt f i) := by
  simp [rightGuaiAt]
  omega

theorem leftCurve1At_inRows (f2 : Findline2) (hlo : 5 ≤ i) (hhi : i ≤ 117) :
    All Access.InRows (leftCurve1At f f2 i) := by
  simp [leftCurve1At]
  omega

theorem rightCurve1At_inRows (f2 : Findline2) (hlo : 5 ≤ i) (hhi : i ≤ 117) :
    All Access.InRows (rightCurve1At f f2 i) := by
  simp [rightCurve1At]
  omega

theorem leftHuan2At_inRows (hlo : 0 ≤ i) (hhi : i ≤ 111) :
    All Access.InRows (leftHuan2At f i) := by
  simp [leftHuan2At]
  omega

theorem rightHuan2At_inRows (hlo : 0 ≤ i) (hhi : i ≤ 111) :
    All Access.InRows (rightHuan2At f i) := by
  simp [rightHuan2At]
  omega

theorem leftHuan3At_inRows (hlo : 25 ≤ i) (hhi : i ≤ 114) :
    All Access.InRows (leftHuan3At img f i) := by
  simp [leftHuan3At, huan3Probe]
  omega

theorem rightHuan3At_inRows (hlo : 25 ≤ i) (hhi : i ≤ 114) :
    All Access.InRows (rightHuan3At img f i) := by
  simp [rightHuan3At, huan3Probe]
  omega

theorem leftHuanguaiAt_inRows (hlo : 3 ≤ i) (hhi : i ≤ 114) :
    All Access.InRows (leftHuanguaiAt f i) := by
  simp [leftHuanguaiAt]
  omega

theorem rightHuanguaiAt_inRows (hlo : 3 ≤ i) (hhi : i ≤ 114) :
    All Access.InRows (rightHuanguaiAt f i) := by
  simp [rightHuanguaiAt]
  omega

theorem leftRingBodyAt_inRows (hlo : 3 ≤ i) (hhi : i ≤ 111) :
    All Access.InRows (leftRingBodyAt f i) := by
  simp [leftRingBodyAt]
  omega

theorem rightRingBodyAt_inRows (hlo : 3 ≤ i) (hhi : i ≤ 111) :
    All Access.InRows (rightRingBodyAt f i) := by
  simp [rightRingBodyAt]
  omega

theorem leftExitAt_inRows (hlo : 0 ≤ i) (hhi : i ≤ 116) : All Access.InRows (leftExitAt s i) := by
  simp [leftExitAt]
  omega

theorem rightExitAt_inRows (hlo : 0 ≤ i) (hhi : i ≤ 116) :
    All Access.InRows (rightExitAt s i) := by
  simp [rightExitAt]
  omega

theorem toppointEdge_inRows (hlo : 5 ≤ i) (hhi : i ≤ 119) :
    All Access.InRows (toppointEdge img f i) := by
  simp [toppointEdge]
  omega

theorem midlineOut_inRows (hlo : 0 ≤ i) (hhi : i ≤ 119) : All Access.InRows (midlineOut f i) := by
  simp [midlineOut]
  omega

/-- The target of a compensation loop that starts at row `hi` or farther. -/
def TargetInRows (hi : Int) (target : Findline1 → Int → Logged Access Int) : Prop :=
  ∀ f i, 0 ≤ i → i ≤ hi → All Access.InRows (target f i)

theorem leftRingEntryTarget_inRows : TargetInRows 117 leftRingEntryTarget := by
  intro f i hlo hhi
  simp [leftRingEntryTarget]
  grind

theorem leftRingBodyTarget_inRows : TargetInRows 117 leftRingBodyTarget := by
  intro f i hlo hhi
  simp [leftRingBodyTarget]
  grind

theorem rightRingEntryTarget_inRows : TargetInRows 117 rightRingEntryTarget := by
  intro f i hlo hhi
  simp [rightRingEntryTarget]
  grind

theorem rightRingBodyTarget_inRows : TargetInRows 117 rightRingBodyTarget := by
  intro f i hlo hhi
  simp [rightRingBodyTarget]
  grind

theorem leftExitTarget_inRows : TargetInRows 117 leftExitTarget := by
  intro f i hlo hhi
  simp [leftExitTarget]
  grind

theorem rightExitTarget_inRows : TargetInRows 117 rightExitTarget := by
  intro f i hlo hhi
  simp [rightExitTarget]
  grind

theorem leftTurnTarget_inRows : TargetInRows 117 leftTurnTarget := by
  intro f i hlo hhi
  simp [leftTurnTarget]
  grind

theorem rightTurnTarget_inRows : TargetInRows 117 rightTurnTarget := by
  intro f i hlo hhi
  simp [rightTurnTarget]
  grind

theorem leftDeepTarget_inRows : TargetInRows 118 leftDeepTarget := by
  intro f i hlo hhi
  simp [leftDeepTarget]
  grind

theorem rightDeepTarget_inRows : TargetInRows 118 rightDeepTarget := by
  intro f i hlo hhi
  simp [rightDeepTarget]
  grind

end Tests

/-! ## Corners and turns -/

/-- The rows recorded in `f2`: the far end has been found, and a corner or a
small turn that is flagged lies on a row of its search. -/
structure RowsRecorded (f2 : Findline2) : Prop where
  found : f2.toppointFlag = 1
  top : 3 ≤ f2.toppoint ∧ f2.toppoint ≤ 118
  leftturn : f2.leftturnflag = 1 → 31 ≤ f2.leftturnRow ∧ f2.leftturnRow ≤ 115
  rightturn : f2.rightturnflag = 1 → 31 ≤ f2.rightturnRow ∧ f2.rightturnRow ≤ 115
  leftguai : f2.leftguaiflag = 1 → 46 ≤ f2.leftguaiRow ∧ f2.leftguaiRow ≤ 108
  rightguai : f2.rightguaiflag = 1 → 46 ≤ f2.rightguaiRow ∧ f2.rightguaiRow ≤ 108

section Detect

variable (f1 : Findline1) {f2 : Findline2}

theorem findLeftguai_ensures (h : RowsRecorded f2) :
    Ensures Access.InRows RowsRecorded (findLeftguai f1 f2) := by
  have htop := h.top
  refine Ensures.bind (scanDown_ensures fun i hlo hhi =>
    leftGuaiAt_inRows f1 i (by omega) (by omega)) ?_
  rintro (_ | i) hfound
  · exact Ensures.pure h
  · obtain ⟨hlo, hhi, htest⟩ := hfound i rfl
    have hrow : 45 < i := by simp [leftGuaiAt] at htest; omega
    refine Ensures.bind_all ?_ fun c => Ensures.pure ?_
    · simp [inRows_iff, Access.row]
      omega
    · exact { h with leftguai := fun _ => ⟨by simp only; omega, by simp only; omega⟩ }

theorem findRightguai_ensures (h : RowsRecorded f2) :
    Ensures Access.InRows RowsRecorded (findRightguai f1 f2) := by
  have htop := h.top
  refine Ensures.bind (scanDown_ensures fun i hlo hhi =>
    rightGuaiAt_inRows f1 i (by omega) (by omega)) ?_
  rintro (_ | i) hfound
  · exact Ensures.pure h
  · obtain ⟨hlo, hhi, htest⟩ := hfound i rfl
    have hrow : 45 < i := by simp [rightGuaiAt] at htest; omega
    refine Ensures.bind_all ?_ fun c => Ensures.pure ?_
    · simp [inRows_iff, Access.row]
      omega
    · exact { h with rightguai := fun _ => ⟨by simp only; omega, by simp only; omega⟩ }

theorem findGuai_ensures (h : RowsRecorded f2) :
    Ensures Access.InRows RowsRecorded (findGuai f1 f2) := by
  refine Ensures.onlyIf h fun _ => Ensures.bind (Q := RowsRecorded) ?_ fun f2 h => ?_
  · exact Ensures.onlyIf h fun _ => findLeftguai_ensures f1 h
  · exact Ensures.onlyIf h fun _ => findRightguai_ensures f1 h

theorem lflag_inRows {i : Int} (hlo : 0 ≤ i) (hhi : i ≤ 119) :
    All Access.InRows (f1.lflag i) := by
  simp [inRows_iff, Access.row, hlo, hhi]

theorem rflag_inRows {i : Int} (hlo : 0 ≤ i) (hhi : i ≤ 119) :
    All Access.InRows (f1.rflag i) := by
  simp [inRows_iff, Access.row, hlo, hhi]

theorem countLost_inRows {flag : Int → Logged Access Int}
    (hflag : ∀ i, 0 ≤ i → i ≤ 119 → All Access.InRows (flag i)) {r toppoint : Int} (lose : Int)
    (htop : 0 ≤ toppoint) (hr : r ≤ 119) :
    All Access.InRows (countLost flag r toppoint lose) := by
  refine all_foldDown (fun _ _ => True) trivial ?_
  intro i lose hlo hhi _
  simp [hflag i (by omega) (by omega)]

theorem takeLeftCurve1_ensures (loseCnt : Int) {i : Int} (hlo : 31 ≤ i) (hhi : i ≤ 115)
    (h : RowsRecorded f2) :
    Ensures Access.InRows RowsRecorded (takeLeftCurve1 loseCnt f1 i f2) := by
  have hturn : RowsRecorded { f2 with leftturnRow := i, leftturnflag := 1 } :=
    { h with leftturn := fun _ => ⟨hlo, hhi⟩ }
  refine Ensures.bind_all ?_ fun far => Ensures.onlyIf ?_ fun _ => Ensures.bind_all ?_ fun lose =>
    Ensures.pure ?_
  · simp [inRows_iff, Access.row]
    omega
  · split
    · exact { hturn with rightturn := by simp }
    · exact hturn
  · refine countLost_inRows (fun i => rflag_inRows f1) _ ?_ (by omega)
    have htop := h.top
    split <;> simp only <;> omega
  · split <;> split
    · exact { h with leftturn := by simp, rightturn := by simp }
    · exact { hturn with leftturn := by simp }
    · exact { hturn with rightturn := by simp }
    · exact hturn

theorem takeRightCurve1_ensures (loseCnt : Int) {i : Int} (hlo : 31 ≤ i) (hhi : i ≤ 115)
    (h : RowsRecorded f2) :
    Ensures Access.InRows RowsRecorded (takeRightCurve1 loseCnt f1 i f2) := by
  have hturn : RowsRecorded { f2 with rightturnRow := i, rightturnflag := 1 } :=
    { h with rightturn := fun _ => ⟨hlo, hhi⟩ }
  refine Ensures.bind_all ?_ fun far => Ensures.onlyIf ?_ fun _ => Ensures.bind_all ?_ fun lose =>
    Ensures.pure ?_
  · simp [inRows_iff, Access.row]
    omega
  · split
    · exact { hturn with leftturn := by simp }
    · exact hturn
  · refine countLost_inRows (fun i => lflag_inRows f1) _ ?_ (by omega)
    have htop := h.top
    split <;> simp only <;> omega
  · split <;> split
    · exact { h with leftturn := by simp, rightturn := by simp }
    · exact { hturn with rightturn := by simp }
    · exact { hturn with leftturn := by simp }
    · exact hturn

/-- A small left turn is only taken up on the rows above 30. -/
theorem leftCurve1At_row {i : Int} (h : (leftCurve1At f1 f2 i).val = true) : 30 < i := by
  simp [leftCurve1At] at h
  omega

theorem rightCurve1At_row {i : Int} (h : (rightCurve1At f1 f2 i).val = true) : 30 < i := by
  simp [rightCurve1At] at h
  omega

theorem findCurve1_ensures (loseCnt : Int) (h : RowsRecorded f2) :
    Ensures Access.InRows RowsRecorded (findCurve1 loseCnt f1 f2) := by
  have htop := h.top
  refine forDown_ensures (fun _ => RowsRecorded) h ?_ fun _ h => h
  intro i f2 hlo hhi h
  refine Ensures.bind_all ?_ fun lost => Ensures.ite (fun _ => ?_) fun _ => ?_
  · simpa using lflag_inRows f1 (i := i) (by omega) (by omega)
  · refine Ensures.bind (Q := fun at' => at' = (leftCurve1At f1 f2 i).val)
      ⟨leftCurve1At_inRows f1 i f2 (by omega) (by omega), rfl⟩ ?_
    rintro _ rfl
    refine Ensures.ite (fun hat => ?_) fun _ => Ensures.pure h
    have hrow := leftCurve1At_row f1 hat
    exact (takeLeftCurve1_ensures f1 loseCnt (by omega) hhi h).bind fun f2 h => Ensures.pure h
  · refine Ensures.bind_all ?_ fun lost => Ensures.ite (fun _ => ?_) fun _ => Ensures.pure h
    · simpa using rflag_inRows f1 (i := i) (by omega) (by omega)
    · refine Ensures.bind (Q := fun at' => at' = (rightCurve1At f1 f2 i).val)
        ⟨rightCurve1At_inRows f1 i f2 (by omega) (by omega), rfl⟩ ?_
      rintro _ rfl
      refine Ensures.ite (fun hat => ?_) fun _ => Ensures.pure h
      have hrow := rightCurve1At_row f1 hat
      exact (takeRightCurve1_ensures f1 loseCnt (by omega) hhi h).bind fun f2 h => Ensures.pure h

theorem confirmLost_inRows {contradicts : Int → Logged Access Bool} {toppoint flag : Int}
    (htop : 0 ≤ toppoint) (htest : ∀ i, 0 ≤ i → i ≤ 119 → All Access.InRows (contradicts i)) :
    All Access.InRows (confirmLost contradicts toppoint flag) := by
  refine (all_onlyIf _ _ _).mpr fun _ => all_foldDown (fun _ _ => True) trivial ?_
  intro i flag hlo hhi _
  simp [htest i (by omega) (by omega)]

theorem findCurve3_ensures (h : RowsRecorded f2) :
    Ensures Access.InRows RowsRecorded (findCurve3 f1 f2) := by
  have htop := h.top
  refine Ensures.onlyIf h fun hnone => ?_
  refine Ensures.bind_all ?_ fun flags => Ensures.bind_all ?_ fun flagL => Ensures.bind_all ?_
    fun flagR => Ensures.pure ?_
  · refine all_foldDown (fun _ _ => True) trivial ?_
    intro i flags hlo hhi _
    simp [inRows_iff, Access.row]
    omega
  · refine confirmLost_inRows (by omega) fun i hlo hhi => ?_
    simp [inRows_iff, Access.row, hlo, hhi]
  · refine confirmLost_inRows (by omega) fun i hlo hhi => ?_
    simp [inRows_iff, Access.row, hlo, hhi]
  · split
    · exact { h with leftturn := by simp }
    · split
      · exact { h with rightturn := by simp }
      · exact h

theorem clearLeftguai_rows (h : RowsRecorded f2) : RowsRecorded f2.clearLeftguai :=
  { h with leftguai := by simp [Findline2.clearLeftguai] }

theorem clearRightguai_rows (h : RowsRecorded f2) : RowsRecorded f2.clearRightguai :=
  { h with rightguai := by simp [Findline2.clearRightguai] }

theorem rowLoseJudge_inRows {flag : Int → Logged Access Int}
    (hflag : ∀ i, 0 ≤ i → i ≤ 119 → All Access.InRows (flag i)) {row toppoint : Int}
    (htop : 0 ≤ toppoint) (hrow : row ≤ 119) :
    All Access.InRows (scanDown row toppoint fun i => (flag i).eq 0) := by
  refine all_scanDown fun i hlo hhi => ?_
  simpa using hflag i (by omega) (by omega)

theorem judgeLeftguai_ensures (h : RowsRecorded f2) (hguai : f2.leftguaiflag = 1) :
    Ensures Access.InRows RowsRecorded (judgeLeftguai f1 f2) := by
  have htop := h.top
  have hrow := h.leftguai hguai
  refine Ensures.ite (fun _ => Ensures.pure (clearLeftguai_rows h)) fun _ => ?_
  refine Ensures.bind_all ?_ fun lost => Ensures.ite
    (fun _ => Ensures.pure (clearLeftguai_rows h)) fun _ => Ensures.pure h
  simpa [rightRowLoseJudge] using
    rowLoseJudge_inRows (fun i => rflag_inRows f1) (by omega) (by omega)

theorem judgeRightguai_ensures (h : RowsRecorded f2) (hguai : f2.rightguaiflag = 1) :
    Ensures Access.InRows RowsRecorded (judgeRightguai f1 f2) := by
  have htop := h.top
  have hrow := h.rightguai hguai
  refine Ensures.ite (fun _ => Ensures.pure (clearRightguai_rows h)) fun _ => ?_
  refine Ensures.bind_all ?_ fun lost => Ensures.ite
    (fun _ => Ensures.pure (clearRightguai_rows h)) fun _ => Ensures.pure h
  simpa [leftRowLoseJudge] using
    rowLoseJudge_inRows (fun i => lflag_inRows f1) (by omega) (by omega)

theorem shiziJudge_ensures (h : RowsRecorded f2) :
    Ensures Access.InRows RowsRecorded (shiziJudge f1 f2) := by
  refine Ensures.bind (Q := RowsRecorded) ?_ fun f2 h => ?_
  · exact Ensures.onlyIf h fun hguai => judgeLeftguai_ensures f1 h hguai
  · exact Ensures.onlyIf h fun hguai => judgeRightguai_ensures f1 h hguai

theorem bothFoundAround_inRows {row : Int} (hlo : 46 ≤ row) (hhi : row ≤ 108) :
    All Access.InRows (bothFoundAround f1 row) := by
  simp only [bothFoundAround, all_bind, all_pure, and_true]
  refine all_scanDown fun i h₁ h₂ => ?_
  simp [inRows_iff, Access.row]
  omega

theorem bothRowLoseJudge_ensures (h : RowsRecorded f2) :
    Ensures Access.InRows RowsRecorded (bothRowLoseJudge f1 f2) := by
  refine Ensures.bind (Q := RowsRecorded) ?_ fun f2 h => ?_
  · refine Ensures.onlyIf h fun hguai => Ensures.bind_all ?_ fun found => Ensures.pure ?_
    · exact bothFoundAround_inRows f1 (h.leftguai hguai).1 (h.leftguai hguai).2
    · split
      · exact { h with leftguai := by simp }
      · exact h
  · refine Ensures.onlyIf h fun hguai => Ensures.bind_all ?_ fun found => Ensures.pure ?_
    · exact bothFoundAround_inRows f1 (h.rightguai hguai).1 (h.rightguai hguai).2
    · split
      · exact { h with rightguai := by simp }
      · exact h

theorem keepNearGuai_rows (h : RowsRecorded f2) : RowsRecorded (keepNearGuai f2) := by
  unfold keepNearGuai
  refine iteInduction (fun _ => ?_) fun _ => h
  extract_lets near
  have hnear : RowsRecorded near :=
    iteInduction (fun _ => { h with rightguai := by simp }) fun _ => h
  exact iteInduction (fun _ => { hnear with leftguai := by simp }) fun _ => hnear

theorem advanceShizi_rows (h : RowsRecorded f2) : RowsRecorded (advanceShizi f2) := by
  unfold advanceShizi
  extract_lets counted
  have hcounted : RowsRecorded counted := iteInduction (fun _ => { h with }) fun _ => h
  exact iteInduction (fun _ => { hcounted with }) fun _ => hcounted

theorem countShizi_rows (h : RowsRecorded f2) : RowsRecorded (countShizi f2) := by
  have hadvance := advanceShizi_rows h
  refine iteInduction (fun _ => ?_) fun _ => h
  exact iteInduction (fun _ => { hadvance with leftturn := by simp, rightturn := by simp })
    fun _ => hadvance

theorem dropGuai_rows (h : RowsRecorded f2) : RowsRecorded (dropGuai f2) := by
  unfold dropGuai
  extract_lets left
  have hleft : RowsRecorded left := iteInduction (fun _ => clearLeftguai_rows h) fun _ => h
  exact iteInduction (fun _ => clearRightguai_rows hleft) fun _ => hleft

theorem findHuanguai_ensures (h : RowsRecorded f2) :
    Ensures Access.InRows RowsRecorded (findHuanguai f1 f2) := by
  refine forDown_ensures (fun _ => RowsRecorded) h ?_ fun _ h => h
  intro i f2 hlo hhi h
  refine Ensures.bind_all ?_ fun left => Ensures.ite (fun _ => ?_) fun _ => ?_
  · simp [leftHuanguaiAt_inRows f1 i (by omega) (by omega)]
  · refine Ensures.bind_all ?_ fun c => Ensures.pure { h with }
    simp [inRows_iff, Access.row]
    omega
  · refine Ensures.bind_all ?_ fun right => Ensures.ite (fun _ => ?_) fun _ => Ensures.pure h
    · simp [rightHuanguaiAt_inRows f1 i (by omega) (by omega)]
    · refine Ensures.bind_all ?_ fun c => Ensures.pure { h with }
      simp [inRows_iff, Access.row]
      omega

end Detect

end SmartCar
