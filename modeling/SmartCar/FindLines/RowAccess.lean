import SmartCar.FindLines.SearchRows

/-!
# Every row index is in range

The rows that `findline1` and `findline2` touch. Rows 1 to 3 are never searched,
they only ever lie on one of the two border columns, so the second search of
`find_toppoint` always ends; with `toppoint` and the stored corner and turn rows
in range every index computed from them is one of the 120 rows.
-/

namespace SmartCar

open Imperative Logged

/-! ## The rows next to the far border -/

/-- Rows 1 to 3 lie on the column `v`. -/
def OnColumn (v : Int) (f : Findline1) : Prop :=
  ∀ i, 1 ≤ i → i ≤ 3 → f.midline i = v ∧ f.leftline i = v ∧ f.rightline i = v

/-- Rows 1 to 3 lie on one of the two border columns. -/
def OnBorder (f : Findline1) : Prop := ∃ v, (v = 0 ∨ v = 159) ∧ OnColumn v f

/-- A row where a centre line met the border, or 0 if none has. -/
def BorderRow (r : Int) : Prop := r = 0 ∨ 3 ≤ r ∧ r ≤ 118

theorem OnColumn.setMid {v : Int} {f : Findline1} (h : OnColumn v f) {i : Int} (hi : 3 < i)
    (m : Int) : OnColumn v (f.setMid i m) := by
  intro j hlo hhi
  have hne : j ≠ i := by omega
  simpa [Findline1.setMid, hne] using h j hlo hhi

theorem OnBorder.setMid {f : Findline1} (h : OnBorder f) {i : Int} (hi : 3 < i) (m : Int) :
    OnBorder (f.setMid i m) := by
  obtain ⟨v, hv, hon⟩ := h
  exact ⟨v, hv, hon.setMid hi m⟩

/-- `f` with the rows above `i`, up to `r`, on the column `v`. -/
def Findline1.filled (f : Findline1) (i r v : Int) : Findline1 :=
  { f with
    midline := fun j => if i < j ∧ j ≤ r then v else f.midline j
    leftline := fun j => if i < j ∧ j ≤ r then v else f.leftline j
    rightline := fun j => if i < j ∧ j ≤ r then v else f.rightline j }

theorem update_filled (g : Int → Int) {i r : Int} (v : Int) (hi : i ≤ r) :
    Function.update (fun j => if i < j ∧ j ≤ r then v else g j) i v =
      fun j => if i - 1 < j ∧ j ≤ r then v else g j := by
  funext j
  rcases eq_or_ne j i with rfl | hne
  · simp [hi]
  · have hiff : (i < j ∧ j ≤ r) ↔ (i - 1 < j ∧ j ≤ r) := by omega
    simp only [Function.update_of_ne hne, hiff]

theorem fillBorder_val (r v : Int) (f : Findline1) : (fillBorder r v f).val = f.filled 0 r v := by
  have hfill : (fillBorder r v f).val = f.filled (min 0 r) r v := by
    refine foldDown_rule (fun i g => g = f.filled i r v) rfl ?_ ?_
    · have hnone : ∀ j, ¬ (r < j ∧ j ≤ r) := by omega
      simp [Findline1.filled, hnone]
    · rintro i g hlo hhi rfl
      simp [Findline1.setBorder, Findline1.filled, update_filled _ _ hhi]
  have hiff : ∀ j, (min 0 r < j ∧ j ≤ r) ↔ (0 < j ∧ j ≤ r) := by omega
  rw [hfill]
  simp only [Findline1.filled, hiff]

theorem fillBorder_none {r : Int} (hr : r ≤ 0) (v : Int) (f : Findline1) :
    (fillBorder r v f).val = f :=
  foldDown_keeps (fun g => g = f) rfl fun i g h₁ h₂ _ => absurd h₁ (by omega)

theorem fillBorder_onColumn {r : Int} (hr : 3 ≤ r) (v : Int) (f : Findline1) :
    OnColumn v (fillBorder r v f).val := by
  intro i hlo hhi
  have hin : 0 < i ∧ i ≤ r := by omega
  simp [fillBorder_val, Findline1.filled, hin]

theorem fillBorder_inRows {r : Int} (hr : r ≤ 119) (v : Int) (f : Findline1) :
    All Access.InRows (fillBorder r v f) := by
  refine all_foldDown (fun _ _ => True) trivial ?_
  intro i g hlo hhi _
  simp [inRows_iff, Access.row]
  omega

/-- A loop that stops before row 3 never reaches it; a loop to row 1 that passes
row 3 meets no border on rows 2 and 1. -/
def PassesNear (meets : Int → Bool) (lo : Int) (target : Findline1 → Int → Logged Access Int)
    (w : Int) : Prop :=
  3 ≤ lo ∨ (∀ f, OnColumn w f → meets (target f 3).val = true) ∨
    ∀ f i, 1 ≤ i → i ≤ 2 → (∀ j, 1 ≤ j → j ≤ 3 → f.leftline j = w ∧ f.rightline j = w) →
      f.midline i = w → meets (f.midline (i + 1)) = false → meets (target f i).val = false

/-- What a bend knows of rows 1 to 3 before row `i`. -/
structure BendInv (meets : Int → Bool) (lo w r i : Int)
    (target : Findline1 → Int → Logged Access Int) (st : Findline1 × Int) : Prop where
  edges : ∀ j, 1 ≤ j → j ≤ 3 → st.1.leftline j = w ∧ st.1.rightline j = w
  ahead : ∀ j, 1 ≤ j → j ≤ 3 → j ≤ i → st.1.midline j = w
  row : st.2 = r
  passed : i ≤ 2 → lo < 3 → meets (st.1.midline (i + 1)) = false ∧
    ¬ ∀ f, OnColumn w f → meets (target f 3).val = true

theorem bend_ensures {meets : Int → Bool} {v hi lo w r : Int}
    {target : Findline1 → Int → Logged Access Int} {f : Findline1}
    (hrows : TargetInRows hi target) (hon : OnColumn w f) (hr : BorderRow r)
    (hlo : 0 ≤ lo) (hhi₁ : 3 ≤ hi) (hhi : hi ≤ 118) (hnear : PassesNear meets lo target w) :
    Ensures Access.InRows (fun st => BorderRow st.2 ∧ (3 ≤ lo → OnColumn w st.1))
      (bend meets v hi lo target f r) := by
  refine forDown_ensures (fun i st => BendInv meets lo w r i target st)
    ⟨fun j h₁ h₂ => (hon j h₁ h₂).2, fun j h₁ h₂ _ => (hon j h₁ h₂).1, rfl, fun h => by omega⟩ ?_ ?_
  · rintro i ⟨g, t⟩ hlo' hhi' ⟨hedges, hahead, hrow, hpassed⟩
    obtain rfl : t = r := hrow
    -- the border is met no later than on row 3, so the row stored there is a border row
    have hmeets : meets (target g i).val = true → 3 ≤ i := by
      intro hmeet
      by_contra hlt
      obtain ⟨hprev, hskip⟩ := hpassed (by omega) (by omega)
      rcases hnear with h | h | h
      · omega
      · exact hskip h
      · simp [h g i (by omega) (by omega) hedges (hahead i (by omega) (by omega) le_rfl) hprev]
          at hmeet
    refine Ensures.bind (Q := fun m => m = (target g i).val)
      ⟨hrows g i (by omega) hhi', rfl⟩ ?_
    rintro _ rfl
    have hstore : ∀ m, Ensures Access.InRows (fun g' => g' = g.setMid i m) (g.storeMid i m) :=
      fun m => ⟨by simp [inRows_iff, Access.row]; omega, rfl⟩
    refine Ensures.ite (fun hmeet => ?_) fun hmiss => ?_
    · have hthree := hmeets hmeet
      refine (hstore v).bind ?_
      rintro _ rfl
      refine Ensures.pure ⟨Or.inr ⟨hthree, by omega⟩, fun hlo₃ => ?_⟩
      have hcolumn : OnColumn w g := fun j h₁ h₂ => ⟨hahead j h₁ h₂ (by omega), hedges j h₁ h₂⟩
      exact hcolumn.setMid (by omega) v
    · refine (hstore _).bind ?_
      rintro _ rfl
      refine Ensures.pure ⟨hedges, fun j h₁ h₂ h₃ => ?_, rfl, fun hle hlo₃ => ?_⟩
      · simpa [Findline1.setMid, show j ≠ i by omega] using hahead j h₁ h₂ (by omega)
      · refine ⟨by simpa [Findline1.setMid] using hmiss, fun hmeet => ?_⟩
        rcases Int.lt_or_le i 3 with hlt | hge
        · exact (hpassed (by omega) hlo₃).2 hmeet
        · obtain rfl : i = 3 := by omega
          exact hmiss (hmeet g fun j h₁ h₂ => ⟨hahead j h₁ h₂ h₂, hedges j h₁ h₂⟩)
  · rintro ⟨g, t⟩ ⟨hedges, hahead, hrow, -⟩
    obtain rfl : t = r := hrow
    exact ⟨hr, fun hlo₃ j h₁ h₂ => ⟨hahead j h₁ h₂ (by omega), hedges j h₁ h₂⟩⟩

/-- After a block rows 1 to 3 lie on the border it filled towards. -/
theorem bendFill_ensures {meets : Int → Bool} {v hi lo r toppoint : Int}
    {target : Findline1 → Int → Logged Access Int} {f : Findline1} (hv : v = 0 ∨ v = 159)
    (hrows : TargetInRows hi target) (hon : OnBorder f) (hr : BorderRow r)
    (htop : 3 ≤ toppoint ∧ toppoint ≤ 118) (hlo : 0 ≤ lo) (hhi₁ : 3 ≤ hi) (hhi : hi ≤ 118)
    (hnear : ∀ w, w = 0 ∨ w = 159 → PassesNear meets lo target w) :
    Ensures Access.InRows (fun st => OnBorder st.1 ∧ BorderRow st.2)
      (bendFill meets v hi lo target toppoint f r) := by
  obtain ⟨w, hw, hcolumn⟩ := hon
  refine (bend_ensures hrows hcolumn hr hlo hhi₁ hhi (hnear w hw)).bind ?_
  rintro ⟨g, t⟩ ⟨ht, -⟩
  have hrow : 3 ≤ (if t = 0 then toppoint else t) ∧ (if t = 0 then toppoint else t) ≤ 118 := by
    rcases ht with rfl | ht
    · simpa using htop
    · simpa [show t ≠ 0 by omega] using ht
  refine Ensures.bind (Q := OnColumn v)
    ⟨fillBorder_inRows (by omega) v g, fillBorder_onColumn hrow.1 v g⟩ fun g' hg' => ?_
  exact Ensures.pure ⟨⟨v, hv, hg'⟩, Or.inr hrow⟩

/-! ## The blocks of `findline2` -/

/-- What keeps every row index of `findline2` in range. -/
structure RowsKnown (s : Lines) : Prop where
  recorded : RowsRecorded s.f2
  border : OnBorder s.f1
  L : BorderRow s.L
  R : BorderRow s.R

section Blocks

variable {s : Lines}

theorem redraw_ensures {hi lo : Int} {target : Findline1 → Int → Logged Access Int}
    {f : Findline1} (hrows : TargetInRows hi target) (hlo : 3 ≤ lo) (hhi : hi ≤ 119)
    (hon : OnBorder f) : Ensures Access.InRows OnBorder (redraw hi lo target f) := by
  refine foldDown_ensures (fun _ => OnBorder) hon ?_ fun _ h => h
  intro i g hlo' hhi' hg
  refine Ensures.bind_all (hrows g i (by omega) hhi') fun m => ⟨?_, hg.setMid (by omega) m⟩
  simp [inRows_iff, Access.row]
  omega

theorem leftBlock_ensures {hi lo : Int} {target : Findline1 → Int → Logged Access Int}
    (hrows : TargetInRows hi target) (hlo : 0 ≤ lo) (hhi₁ : 3 ≤ hi) (hhi : hi ≤ 118)
    (hnear : ∀ w, w = 0 ∨ w = 159 → PassesNear meetsLeft lo target w) (h : RowsKnown s) :
    Ensures Access.InRows RowsKnown (leftBlock hi lo target s) := by
  refine (bendFill_ensures (Or.inl rfl) hrows h.border h.L h.recorded.top hlo hhi₁ hhi hnear).bind
    ?_
  rintro ⟨g, L⟩ ⟨hg, hL⟩
  exact Ensures.pure { h with border := hg, L := hL }

theorem rightBlock_ensures {hi lo : Int} {target : Findline1 → Int → Logged Access Int}
    (hrows : TargetInRows hi target) (hlo : 0 ≤ lo) (hhi₁ : 3 ≤ hi) (hhi : hi ≤ 118)
    (hnear : ∀ w, w = 0 ∨ w = 159 → PassesNear meetsRight lo target w) (h : RowsKnown s) :
    Ensures Access.InRows RowsKnown (rightBlock hi lo target s) := by
  refine (bendFill_ensures (Or.inr rfl) hrows h.border h.R h.recorded.top hlo hhi₁ hhi hnear).bind
    ?_
  rintro ⟨g, R⟩ ⟨hg, hR⟩
  exact Ensures.pure { h with border := hg, R := hR }

theorem findToppoint_inRows (img : Image) (f1 : Findline1) (f2 : Findline2) :
    All Access.InRows (findToppoint img f1 f2) := by
  simp only [findToppoint, all_bind, all_ite, all_pure, and_true]
  refine ⟨all_scanDown fun i hlo hhi => toppointEdge_inRows img f1 i (by omega) (by omega), ?_⟩
  split
  · exact all_scanDown fun i hlo hhi => midlineOut_inRows f1 i (by omega) (by omega)
  · trivial

theorem setToppoint_rows {f2 : Findline2} (h : RowsRecorded f2) {found : Option Int}
    (hfound : ∀ i, found = some i → 3 ≤ i ∧ i ≤ 118) : RowsRecorded (f2.setToppoint found) := by
  cases found with
  | none => exact h
  | some i => exact { h with found := rfl, top := hfound i rfl }

theorem findToppoint_ensures (img : Image) (f1 : Findline1) {f2 : Findline2}
    (h : RowsRecorded f2) : Ensures Access.InRows RowsRecorded (findToppoint img f1 f2) := by
  refine ⟨findToppoint_inRows img f1 f2, ?_⟩
  obtain ⟨found, hval, hfound⟩ := findToppoint_val img f1 f2
  rw [hval]
  exact setToppoint_rows h hfound

theorem huan1Stage_inRows {flag : Int → Logged Access Int}
    (hflag : ∀ i, 0 ≤ i → i ≤ 119 → All Access.InRows (flag i)) {toppoint : Int}
    (htop : 0 ≤ toppoint) : All Access.InRows (huan1Stage flag toppoint) := by
  refine all_foldDown (fun _ _ => True) trivial ?_
  intro i js hlo hhi _
  simp [hflag i (by omega) (by omega)]

theorem findHuan1_ensures (h : RowsKnown s) : Ensures Access.InRows RowsKnown (findHuan1 s) := by
  have htop := h.recorded.top
  refine Ensures.ite (fun _ => ?_) fun _ => Ensures.ite (fun _ => ?_) fun _ => Ensures.pure h
  · exact Ensures.bind_all (huan1Stage_inRows (fun i => rflag_inRows s.f1) (by omega))
      fun js1 => Ensures.pure { h with }
  · exact Ensures.bind_all (huan1Stage_inRows (fun i => lflag_inRows s.f1) (by omega))
      fun js2 => Ensures.pure { h with }

theorem cornerBlock_ensures (h : RowsKnown s) :
    Ensures Access.InRows RowsKnown (cornerBlock s) := by
  refine Ensures.onlyIf h fun _ => (findHuan1_ensures h).bind fun s h => ?_
  have hjudge : Ensures Access.InRows RowsRecorded (judgeGuai s.f1 s.f2) :=
    (shiziJudge_ensures s.f1 h.recorded).bind fun f2 h =>
      bothRowLoseJudge_ensures s.f1 (keepNearGuai_rows h)
  refine hjudge.bind fun f2 hf2 => Ensures.pure ?_
  exact { h with recorded := dropGuai_rows (countShizi_rows hf2) }

theorem findCorners_ensures (loseCnt : Int) (h : RowsKnown s) :
    Ensures Access.InRows RowsKnown (findCorners loseCnt s) := by
  have hguai := Ensures.onlyIf (p := s.f2.leftguaiflag = 0 ∧ s.f2.rightguaiflag = 0) h.recorded
    fun _ => findGuai_ensures s.f1 h.recorded
  refine hguai.bind fun f2 h₁ => ?_
  refine (Ensures.onlyIf h₁ fun _ => findCurve1_ensures s.f1 loseCnt h₁).bind fun f2 h₂ => ?_
  refine (Ensures.onlyIf h₂ fun _ => findCurve3_ensures s.f1 h₂).bind fun f2 h₃ => ?_
  exact Ensures.pure { h with recorded := h₃ }

theorem huan2Step_inRows (f : Findline1) {i : Int} (hlo : 0 ≤ i) (hhi : i ≤ 111) (c : Huan2) :
    All Access.InRows (huan2Step f i c) := by
  have hleft := leftHuan2At_inRows f i hlo hhi
  have hright := rightHuan2At_inRows f i hlo hhi
  simp [huan2Step, hleft, hright]

theorem promoteHuan_rows (h : RowsKnown s) : RowsKnown s.promoteHuan :=
  iteInduction (fun _ => { h with recorded := { h.recorded with } })
    fun _ => { h with recorded := { h.recorded with } }

theorem dropHuan_rows (h : RowsKnown s) : RowsKnown s.dropHuan :=
  iteInduction (fun _ => { h with }) fun _ => h

theorem ringStages_ensures (img : Image) (h : RowsKnown s) :
    Ensures Access.InRows RowsKnown (ringStages img s) := by
  have htop := h.recorded.top
  have hstage₂ : Ensures Access.InRows RowsKnown
      (onlyIf (s.js1 = 1 ∨ s.js2 = 1) findHuan2 s) := by
    refine Ensures.onlyIf h fun _ => Ensures.bind_all ?_ fun c => Ensures.pure { h with }
    refine all_forDown (fun _ _ => True) trivial fun i c hlo hhi _ => ⟨?_, continues_true _⟩
    exact huan2Step_inRows s.f1 (by omega) (by omega) c
  refine hstage₂.bind fun s h => Ensures.onlyIf h fun _ => Ensures.bind_all ?_ fun found => ?_
  · refine all_scanDown fun i hlo hhi => ?_
    have hleft := leftHuan3At_inRows img s.f1 i (by omega) (by omega)
    have hright := rightHuan3At_inRows img s.f1 i (by omega) (by omega)
    simp [huan3At, hleft, hright]
  · refine Ensures.pure (dropHuan_rows (iteInduction (fun _ => promoteHuan_rows h) fun _ => h))

theorem ringFlags_rows (h : RowsKnown s) : RowsKnown (ringFlags s) := by
  have hright : RowsKnown (rightRingFlag s) :=
    iteInduction (fun _ => { h with recorded := { h.recorded with } }) fun _ => h
  have hleft : RowsKnown (leftRingFlag (rightRingFlag s)) :=
    iteInduction (fun _ => { hright with recorded := { hright.recorded with } }) fun _ => hright
  exact iteInduction (fun _ => hleft) fun _ => h

/-- The targets that only run down to a far row leave rows 1 to 3 alone. -/
theorem passesNear_of_le {meets : Int → Bool} {lo : Int}
    {target : Findline1 → Int → Logged Access Int} (hlo : 3 ≤ lo) :
    ∀ w, w = 0 ∨ w = 159 → PassesNear meets lo target w :=
  fun _ _ => Or.inl hlo

theorem leftRingRedraw_ensures (h : RowsKnown s) :
    Ensures Access.InRows RowsKnown (leftRingRedraw s) := by
  have htop := h.recorded.top
  have hphase : Ensures Access.InRows RowsKnown (leftRingPhase s) :=
    Ensures.bind_all (all_scanDown fun i hlo hhi =>
      leftRingBodyAt_inRows s.f1 i (by omega) (by omega)) fun found => Ensures.pure { h with }
  refine hphase.bind fun s h => Ensures.bind (Q := RowsKnown) ?_ fun s h => ?_
  · exact Ensures.onlyIf h fun _ => (redraw_ensures leftRingEntryTarget_inRows h.recorded.top.1
      (by omega) h.border).bind fun f1 hf1 => Ensures.pure { h with border := hf1 }
  · exact Ensures.onlyIf h fun _ => leftBlock_ensures
      (fun f i hlo hhi => leftRingBodyTarget_inRows f i hlo (by omega)) (by omega) (by omega)
      (by omega) (passesNear_of_le (by omega)) h

theorem rightRingRedraw_ensures (h : RowsKnown s) :
    Ensures Access.InRows RowsKnown (rightRingRedraw s) := by
  have htop := h.recorded.top
  have hphase : Ensures Access.InRows RowsKnown (rightRingPhase s) :=
    Ensures.bind_all (all_scanDown fun i hlo hhi =>
      rightRingBodyAt_inRows s.f1 i (by omega) (by omega)) fun found => Ensures.pure { h with }
  refine hphase.bind fun s h => Ensures.ite (fun _ => ?_) fun _ => Ensures.onlyIf h fun _ => ?_
  · exact (redraw_ensures rightRingEntryTarget_inRows h.recorded.top.1 (by omega) h.border).bind
      fun f1 hf1 => Ensures.pure { h with border := hf1 }
  · exact rightBlock_ensures
      (fun f i hlo hhi => rightRingBodyTarget_inRows f i hlo (by omega)) (by omega) (by omega)
      (by omega) (passesNear_of_le (by omega)) h

theorem leftRingLeave_ensures (h : RowsKnown s) :
    Ensures Access.InRows RowsKnown (leftRingLeave s) := by
  refine (findHuanguai_ensures s.f1 h.recorded).bind fun f2 hf2 => Ensures.pure ?_
  split
  · exact { h with recorded := { hf2 with leftturn := by simp } }
  · exact { h with recorded := { hf2 with leftturn := by simp } }

theorem rightRingLeave_ensures (h : RowsKnown s) :
    Ensures Access.InRows RowsKnown (rightRingLeave s) := by
  refine (findHuanguai_ensures s.f1 h.recorded).bind fun f2 hf2 => Ensures.pure ?_
  split
  · exact { h with recorded := { hf2 with rightturn := by simp } }
  · exact { h with recorded := { hf2 with rightturn := by simp } }

theorem leftRing_ensures (h : RowsKnown s) : Ensures Access.InRows RowsKnown (leftRing s) :=
  Ensures.onlyIf h fun _ => (leftRingRedraw_ensures h).bind fun _ h => leftRingLeave_ensures h

theorem rightRing_ensures (h : RowsKnown s) : Ensures Access.InRows RowsKnown (rightRing s) :=
  Ensures.onlyIf h fun _ => (rightRingRedraw_ensures h).bind fun _ h => rightRingLeave_ensures h

theorem ringCompensate_ensures (h : RowsKnown s) :
    Ensures Access.InRows RowsKnown (ringCompensate s) :=
  (leftRing_ensures h).bind fun _ h => rightRing_ensures h

theorem ringBlock_ensures (img : Image) (h : RowsKnown s) :
    Ensures Access.InRows RowsKnown (ringBlock img s) := by
  refine Ensures.onlyIf h fun _ => (ringCompensate_ensures h).bind fun s h => ?_
  exact (findToppoint_ensures img s.f1 h.recorded).bind fun f2 hf2 =>
    Ensures.pure { h with recorded := hf2 }

theorem huanBlock_ensures (h : RowsKnown s) : Ensures Access.InRows RowsKnown (huanBlock s) := by
  refine Ensures.onlyIf h fun _ => Ensures.bind (Q := RowsKnown) ?_ fun s h => ?_
  · have hclear : RowsKnown s.clearShizi := { h with recorded := { h.recorded with } }
    have htop := hclear.recorded.top
    refine Ensures.onlyIf hclear fun _ => Ensures.bind_all
      (all_scanDown fun i hlo hhi => leftExitAt_inRows _ i (by omega) (by omega)) fun found =>
        Ensures.pure ?_
    exact iteInduction (fun _ => { hclear with recorded := { hclear.recorded with } })
      fun _ => hclear
  · have htop := h.recorded.top
    refine Ensures.onlyIf h fun _ => Ensures.bind_all
      (all_scanDown fun i hlo hhi => rightExitAt_inRows _ i (by omega) (by omega)) fun found =>
        Ensures.pure ?_
    exact iteInduction (fun _ => { h with recorded := { h.recorded with } }) fun _ => h

theorem rightExitBlock_ensures (h : RowsKnown s) :
    Ensures Access.InRows RowsKnown (rightExitBlock s) := by
  obtain ⟨w, hw, hcolumn⟩ := h.border
  have htop := h.recorded.top
  refine (bend_ensures (fun f i hlo hhi => rightExitTarget_inRows f i hlo (by omega)) hcolumn h.R
    (by omega) (by omega) (by omega) (Or.inl (by omega))).bind ?_
  rintro ⟨g, R⟩ ⟨hR, hg⟩
  have hrow : BorderRow (if R = 0 then s.f2.toppoint else s.L) :=
    iteInduction (fun _ => Or.inr htop) fun _ => h.L
  have hle : (if R = 0 then s.f2.toppoint else s.L) ≤ 118 := by
    rcases hrow with h | h <;> omega
  refine Ensures.bind (Q := OnBorder) ⟨fillBorder_inRows (by omega) 159 g, ?_⟩ fun f1 hf1 => ?_
  · -- the fill may start at row 0, then rows 1 to 3 are those of the bend
    rcases hrow with hzero | hthree
    · rw [fillBorder_none (by omega)]
      exact ⟨w, hw, hg (by omega)⟩
    · exact ⟨159, Or.inr rfl, fillBorder_onColumn hthree.1 159 g⟩
  · exact Ensures.pure { h with border := hf1, R := hrow }

theorem huanExitBlock_ensures (shortstraightFlag : Int) (h : RowsKnown s) :
    Ensures Access.InRows RowsKnown (huanExitBlock shortstraightFlag s) := by
  refine Ensures.onlyIf h fun _ => Ensures.bind (Q := RowsKnown) ?_ fun s h =>
    Ensures.bind_all ?_ fun m => Ensures.pure ?_
  · have hclear : RowsKnown s.clearTurns :=
      { h with recorded := { h.recorded with leftturn := by simp [Lines.clearTurns],
                                             rightturn := by simp [Lines.clearTurns] } }
    have htop := hclear.recorded.top
    refine Ensures.ite (fun _ => ?_) fun _ => Ensures.ite (fun _ => ?_) fun _ => ?_
    · exact leftBlock_ensures (fun f i hlo hhi => leftExitTarget_inRows f i hlo (by omega))
        (by omega) (by omega) (by omega) (passesNear_of_le htop.1) hclear
    · exact rightExitBlock_ensures hclear
    · exact Ensures.pure hclear
  · refine all_foldDown (fun _ _ => True) trivial fun i m hlo hhi _ => ⟨?_, trivial⟩
    simp [inRows_iff, Access.row]
    omega
  · exact iteInduction (fun _ => { h with recorded := { h.recorded with } }) fun _ => h

/-! ### Turns run down to row 1 -/

theorem leftDeepTarget_val (f : Findline1) (i : Int) :
    (leftDeepTarget f i).val = clampColumn (f.rightline i - 80) := rfl

theorem leftDeep_passesNear (w : Int) (hw : w = 0 ∨ w = 159) :
    PassesNear meetsLeft 0 leftDeepTarget w := by
  rcases hw with rfl | rfl
  · refine Or.inr (Or.inl fun f hf => ?_)
    simp [leftDeepTarget_val, (hf 3 (by omega) le_rfl).2.2, clampColumn, meetsLeft]
  · refine Or.inr (Or.inr fun f i hlo hhi hedges hmid hmiss => ?_)
    simp [leftDeepTarget_val, (hedges i hlo (by omega)).2, clampColumn, meetsLeft]

theorem rightDeep_passesNear (w : Int) (hw : w = 0 ∨ w = 159) :
    PassesNear meetsRight 0 rightDeepTarget w := by
  rcases hw with rfl | rfl
  · refine Or.inr (Or.inr fun f i hlo hhi hedges hmid hmiss => ?_)
    simp [rightDeepTarget, (hedges i hlo (by omega)).1, meetsRight]
  · refine Or.inr (Or.inl fun f hf => ?_)
    simp [rightDeepTarget, (hf 3 (by omega) le_rfl).2.1, meetsRight]

theorem rightTurn_passesNear (w : Int) (hw : w = 0 ∨ w = 159) :
    PassesNear meetsRight 0 rightTurnTarget w := by
  refine Or.inr (Or.inr fun f i hlo hhi hedges hmid hmiss => ?_)
  have hi := (hedges i hlo (by omega)).1
  have hi' := (hedges (i + 1) (by omega) (by omega)).1
  rcases hw with rfl | rfl
  · simp [rightTurnTarget, hi, hmid, meetsRight]
  · simpa [rightTurnTarget, hi, hi', meetsRight] using hmiss

theorem turnCompensate_ensures (h : RowsKnown s) :
    Ensures Access.InRows RowsKnown (turnCompensate s) := by
  refine Ensures.onlyIf h fun _ => ?_
  refine (Ensures.onlyIf h fun hturn => ?_).bind fun s h =>
    (Ensures.onlyIf h fun _ => ?_).bind fun s h =>
    (Ensures.onlyIf h fun hturn => ?_).bind fun s h => Ensures.onlyIf h fun _ => ?_
  · have hrow := h.recorded.leftturn hturn
    have htop := h.recorded.top
    exact leftBlock_ensures (fun f i hlo hhi => leftTurnTarget_inRows f i hlo (by omega))
      (by omega) (by omega) (by omega) (passesNear_of_le htop.1) h
  · exact leftBlock_ensures leftDeepTarget_inRows le_rfl (by omega) le_rfl leftDeep_passesNear h
  · have hrow := h.recorded.rightturn hturn
    exact rightBlock_ensures (fun f i hlo hhi => rightTurnTarget_inRows f i hlo (by omega))
      le_rfl (by omega) (by omega) rightTurn_passesNear h
  · exact rightBlock_ensures rightDeepTarget_inRows le_rfl (by omega) le_rfl rightDeep_passesNear h

end Blocks

/-! ## Frames -/

/-- The far end of the road has been found, on a searched row. -/
def TopFound (f2 : Findline2) : Prop :=
  f2.toppointFlag = 1 ∧ 3 ≤ f2.toppoint ∧ f2.toppoint ≤ 118

theorem RowsRecorded.topFound {f2 : Findline2} (h : RowsRecorded f2) : TopFound f2 :=
  ⟨h.found, h.top⟩

section Frames

variable (fr : Frame) {s : Lines}

theorem edgeMid_inRows (f : Findline1) {i : Int} (hlo : 0 ≤ i) (hhi : i ≤ 118)
    (a b : Option Int) : All Access.InRows (edgeMid f i a b) := by
  cases a <;> cases b <;> simp [edgeMid, inRows_iff, Access.row] <;> grind

theorem edgeRow_inRows (img : Image) (f : Findline1) {i : Int} (hlo : 0 ≤ i) (hhi : i ≤ 118)
    (k : Int) : All Access.InRows (edgeRow img f i k) := by
  simp only [edgeRow, all_bind, all_pure, and_true]
  refine ⟨all_scanDown fun j _ _ => ?_, all_scanUp fun j _ _ => ?_, edgeMid_inRows f hlo hhi _ _⟩
  · simp [leftJump, inRows_iff, Access.row]
    omega
  · simp [rightJump, inRows_iff, Access.row]
    omega

theorem findEdges_inRows (img : Image) (f : Findline1) (columnStart : Int) :
    All Access.InRows (findEdges img f columnStart) := by
  refine all_foldDown (fun _ _ => True) trivial fun i st hlo hhi _ => ⟨?_, trivial⟩
  simp [edgeRow_inRows img st.1 (show 0 ≤ i by omega) hhi, Findline1.storeRow, inRows_iff,
    Access.row]
  omega

theorem findEdges_onBorder (img : Image) (f : Findline1) (columnStart : Int) (h : OnBorder f) :
    OnBorder (findEdges img f columnStart).val.1 := by
  obtain ⟨v, hv, hcolumn⟩ := h
  refine ⟨v, hv, fun i hlo hhi => ?_⟩
  have hrow := findEdges_outside img f columnStart (i := i) (by omega)
  simp only [Findline1.row, EdgeRow.mk.injEq] at hrow
  rw [hrow.1, hrow.2.1, hrow.2.2.1]
  exact hcolumn i hlo hhi

/-- `findline1` always finds a far end: with no edge, the border rows end the
second search. -/
theorem findline1_ensures (h : OnBorder s.f1) :
    Ensures Access.InRows (fun t => TopFound t.f2 ∧ OnBorder t.f1) (findline1 fr s) := by
  have hborder := findEdges_onBorder fr.image s.f1 s.columnStart h
  have hrows : Ensures Access.InRows (fun t => t.f2.toppointFlag = 0 ∧ OnBorder t.f1)
      (findline1Rows fr s) := by
    refine ⟨?_, rfl, hborder⟩
    simp [findline1Rows, findEdges_inRows, inRows_iff, Access.row]
  apply hrows.bind
  rintro t ⟨hflag, ht⟩
  refine Ensures.ite (fun _ => ?_) fun hne => absurd hflag hne
  refine Ensures.bind (Q := TopFound) ⟨findToppoint_inRows _ _ _, ?_⟩ fun f2 hf2 =>
    Ensures.pure ⟨hf2, ht⟩
  obtain ⟨v, hv, hcolumn⟩ := ht
  have hthree := (hcolumn 3 (by omega) le_rfl).1
  obtain ⟨i, hval, hi⟩ := findToppoint_finds fr.image t.f1 t.f2 (by omega) hflag
  rw [hval]
  exact ⟨rfl, hi⟩

theorem clearFrame_rows (htop : TopFound s.f2) (h : OnBorder s.f1) : RowsKnown (clearFrame s) where
  recorded := ⟨htop.1, htop.2, by simp [clearFrame], by simp [clearFrame], by simp [clearFrame],
    by simp [clearFrame]⟩
  border := h
  L := Or.inl rfl
  R := Or.inl rfl

theorem cornersOf_ensures (htop : TopFound s.f2) (h : OnBorder s.f1) :
    Ensures Access.InRows RowsKnown (cornersOf fr s) :=
  findCorners_ensures fr.loseCnt (clearFrame_rows htop h)

theorem stagesOf_ensures (htop : TopFound s.f2) (h : OnBorder s.f1) :
    Ensures Access.InRows RowsKnown (stagesOf fr s) :=
  (cornersOf_ensures fr htop h).bind fun _ h => (cornerBlock_ensures h).bind fun _ h =>
    ringStages_ensures fr.image h

theorem ringsOf_ensures (htop : TopFound s.f2) (h : OnBorder s.f1) :
    Ensures Access.InRows RowsKnown (ringsOf fr s) :=
  (stagesOf_ensures fr htop h).bind fun _ h => ringBlock_ensures fr.image (ringFlags_rows h)

theorem compensated_ensures (htop : TopFound s.f2) (h : OnBorder s.f1) :
    Ensures Access.InRows RowsKnown (compensated fr s) :=
  (ringsOf_ensures fr htop h).bind fun _ h => (huanBlock_ensures h).bind fun _ h =>
    (huanExitBlock_ensures fr.shortstraightFlag h).bind fun _ h => turnCompensate_ensures h

theorem findline2_ensures (htop : TopFound s.f2) (h : OnBorder s.f1) :
    Ensures Access.InRows (fun t => TopFound t.f2 ∧ OnBorder t.f1) (findline2 fr s) := by
  refine (compensated_ensures fr htop h).bind fun t ht => ?_
  refine (findToppoint_ensures fr.image t.f1 ht.recorded).bind fun f2 hf2 =>
    Ensures.bind_all ?_ fun m => Ensures.pure ⟨hf2.topFound, ht.border⟩
  simp [inRows_iff, Access.row]

theorem processFrame_ensures (h : OnBorder s.f1) :
    Ensures Access.InRows (fun t => TopFound t.f2 ∧ OnBorder t.f1) (processFrame fr s) :=
  (findline1_ensures fr h).bind fun _ ⟨htop, hborder⟩ => findline2_ensures fr htop hborder

theorem findline2States_topFound (htop : TopFound s.f2) (h : OnBorder s.f1) :
    ∀ t ∈ findline2States fr s, TopFound t.f2 := by
  have hcorners := (cornersOf_ensures fr htop h).2
  have hjudged := (cornerBlock_ensures hcorners).2
  have hstages := (ringStages_ensures fr.image hjudged).2
  have hrings := (ringBlock_ensures fr.image (ringFlags_rows hstages)).2
  have hhuan := (huanBlock_ensures hrings).2
  have hexit := (huanExitBlock_ensures fr.shortstraightFlag hhuan).2
  have hturn := (turnCompensate_ensures hexit).2
  simp only [findline2States, List.forall_mem_cons, List.not_mem_nil, false_imp_iff,
    implies_true, and_true]
  exact ⟨htop, hcorners.recorded.topFound, hjudged.recorded.topFound, hstages.recorded.topFound,
    (ringFlags_rows hstages).recorded.topFound, hrings.recorded.topFound,
    hhuan.recorded.topFound, hexit.recorded.topFound, hturn.recorded.topFound,
    (findline2_ensures fr htop h).2.1⟩

/-- Between frames rows 1 to 3 lie on a border. -/
theorem reachable_onBorder (hs : Reachable s) : OnBorder s.f1 := by
  obtain ⟨frames, rfl⟩ := hs
  refine run_invariant (fun s : Lines => OnBorder s.f1) (fun fr s h => (processFrame_ensures fr h).2.2) ?_
    frames
  exact ⟨0, Or.inl rfl, fun _ _ _ => ⟨rfl, rfl, rfl⟩⟩

/-- In every run `findline1` ends with a far end in 3..118, `findline2` keeps it
there, and no row index of the frame leaves 0..119. -/
theorem frame_rows_in_range (hs : Reachable s) :
    TopFound (findline1 fr s).val.f2 ∧
      (∀ t ∈ findline2States fr (findline1 fr s).val, TopFound t.f2) ∧
      All Access.InRows (processFrame fr s) := by
  have hborder := reachable_onBorder hs
  obtain ⟨-, htop, hborder₁⟩ := findline1_ensures fr hborder
  exact ⟨htop, findline2States_topFound fr htop hborder₁, (processFrame_ensures fr hborder).1⟩

/-- A road between columns 40 and 120 that is cut off at row 30. -/
def cutRoad : Frame := ⟨fun i j => if 30 ≤ i ∧ 40 ≤ j ∧ j ≤ 120 then 1 else 0, 0, 0⟩

/-- Such a road after one that fills the image. -/
theorem frame_rows_in_range_cutRoad :
    TopFound (findline1 cutRoad (afterFrames [⟨fun _ _ => 1, 0, 0⟩])).val.f2 ∧
      (∀ t ∈ findline2States cutRoad (findline1 cutRoad (afterFrames [⟨fun _ _ => 1, 0, 0⟩])).val,
        TopFound t.f2) ∧
      All Access.InRows (processFrame cutRoad (afterFrames [⟨fun _ _ => 1, 0, 0⟩])) :=
  frame_rows_in_range cutRoad ⟨[⟨fun _ _ => 1, 0, 0⟩], rfl⟩

end Frames

end SmartCar
