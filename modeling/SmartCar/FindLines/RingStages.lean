import SmartCar.FindLines.EdgeLaws
import SmartCar.FindLines.Findline2

/-!
# The stages of a ring detection

`find_huan1`, `find_huan2` and `find_huan3` move one of the two stage counters
from 0 to 1, 2 and 3 within a frame. Each step leaves the other counter at 0,
falls back to 0 where its evidence is missing, and reads rows that no block of
the frame has changed before.
-/

namespace SmartCar

open Imperative Logged

/-- One of the two stage counters may stand at `n`, the other is at rest. -/
structure OneSide (n js1 js2 : Int) : Prop where
  left : js1 = 0 ∨ js1 = n
  right : js2 = 0 ∨ js2 = n
  one : js1 = 0 ∨ js2 = 0

/-! ## `find_huan1` -/

theorem huan1Stage_spec (flag : Int → Logged Access Int) (toppoint : Int) :
    (huan1Stage flag toppoint).val = 0 ∧ (∃ i, toppoint < i ∧ i ≤ 95 ∧ (flag i).val = 0) ∨
      (huan1Stage flag toppoint).val = 1 ∧ ∀ i, toppoint < i → i ≤ 95 → (flag i).val ≠ 0 := by
  have hloop : (huan1Stage flag toppoint).val = 0 ∧
      (∃ j, min toppoint 95 < j ∧ j ≤ 95 ∧ (flag j).val = 0) ∨
      (huan1Stage flag toppoint).val = 1 ∧
        ∀ j, min toppoint 95 < j → j ≤ 95 → (flag j).val ≠ 0 := by
    refine foldDown_rule (fun i js => js = 0 ∧ (∃ j, i < j ∧ j ≤ 95 ∧ (flag j).val = 0) ∨
      js = 1 ∧ ∀ j, i < j → j ≤ 95 → (flag j).val ≠ 0) rfl
      (Or.inr ⟨rfl, fun j h₁ h₂ => absurd h₁ (by omega)⟩) ?_
    intro i js hlo hhi hjs
    simp only [val_bind, val_eq, val_ofNat, val_ite, val_pure, decide_eq_true_eq]
    split
    next hflag => exact Or.inl ⟨rfl, i, by omega, hhi, hflag⟩
    next hflag =>
      -- a row that passes never restores the stage
      rcases hjs with ⟨hzero, j, hj, hj', hlost⟩ | ⟨hone, hall⟩
      · exact Or.inl ⟨hzero, j, by omega, hj', hlost⟩
      · refine Or.inr ⟨hone, fun j hj hj' => ?_⟩
        rcases eq_or_lt_of_le (show i ≤ j by omega) with rfl | hlt
        · exact hflag
        · exact hall j hlt hj'
  rcases hloop with ⟨hzero, j, hj, hj', hlost⟩ | ⟨hone, hall⟩
  · exact Or.inl ⟨hzero, j, by omega, hj', hlost⟩
  · exact Or.inr ⟨hone, fun i hlo hhi => hall i (by omega) hhi⟩

/-- The evidence of stage 1 on one side: only this side shows a corner, and the
opposite edge is never lost between the far end and row 95. -/
structure Stage1 (cornerflag otherflag : Int) (flag : Int → Int) (toppoint : Int) : Prop where
  corner : cornerflag = 1
  other : otherflag = 0
  opposite : ∀ i, toppoint < i → i ≤ 95 → flag i ≠ 0

/-- What `find_huan1` leaves behind, from a frame without a stage. -/
structure Huan1Spec (s t : Lines) : Prop where
  stage : OneSide 1 t.js1 t.js2
  rest : t = { s with js1 := t.js1, js2 := t.js2, js5 := t.js5, js6 := t.js6 }
  left : t.js1 = 1 →
    Stage1 s.f2.leftguaiflag s.f2.rightguaiflag s.f1.rightlineflag s.f2.toppoint
  right : t.js2 = 1 →
    Stage1 s.f2.rightguaiflag s.f2.leftguaiflag s.f1.leftlineflag s.f2.toppoint

theorem findHuan1_spec {s : Lines} (hjs1 : s.js1 = 0) (hjs2 : s.js2 = 0) :
    Huan1Spec s (findHuan1 s).val := by
  have hleft := huan1Stage_spec s.f1.rflag s.f2.toppoint
  have hright := huan1Stage_spec s.f1.lflag s.f2.toppoint
  simp only [rflag_val, lflag_val] at hleft hright
  simp only [findHuan1, val_ite, val_bind, val_pure]
  split
  next hguai =>
    refine ⟨⟨?_, Or.inl hjs2, Or.inr hjs2⟩, rfl, fun hone => ?_, fun hone => ?_⟩
    · exact hleft.imp And.left And.left
    · rcases hleft with ⟨hzero, -⟩ | ⟨-, hall⟩
      · simp only [hzero] at hone
        omega
      · exact ⟨hguai.1, hguai.2, hall⟩
    · simp only [hjs2] at hone
      omega
  next =>
    split
    next hguai =>
      refine ⟨⟨Or.inl hjs1, ?_, Or.inl hjs1⟩, rfl, fun hone => ?_, fun hone => ?_⟩
      · exact hright.imp And.left And.left
      · simp only [hjs1] at hone
        omega
      · rcases hright with ⟨hzero, -⟩ | ⟨-, hall⟩
        · simp only [hzero] at hone
          omega
        · exact ⟨hguai.2, hguai.1, hall⟩
    next =>
      refine ⟨⟨Or.inl hjs1, Or.inl hjs2, Or.inl hjs1⟩, rfl, fun hone => ?_, fun hone => ?_⟩
      · omega
      · omega

/-! ## `find_huan2` -/

/-- How many rows of `(lo, hi]` pass a test. -/
noncomputable def countRows (p : Int → Bool) (lo hi : Int) : Nat :=
  ((Finset.Ioc lo hi).filter fun i => p i = true).card

theorem countRows_self (p : Int → Bool) (lo : Int) : countRows p lo lo = 0 := by
  simp [countRows]

theorem countRows_mono (p : Int → Bool) {lo lo' : Int} (h : lo ≤ lo') (hi : Int) :
    countRows p lo' hi ≤ countRows p lo hi := by
  unfold countRows
  gcongr

theorem countRows_pred (p : Int → Bool) {i hi : Int} (h : i ≤ hi) :
    countRows p (i - 1) hi = countRows p i hi + if p i = true then 1 else 0 := by
  unfold countRows
  rw [← Finset.insert_Ioc_left_eq_Ioc_sub_one h, Finset.filter_insert]
  split
  next => rw [Finset.card_insert_of_notMem (by simp)]
  next => rfl

/-- One iteration of `find_huan2` on the side at stage 1: `mk` puts the counter
and the stage of that side in place, `p` is its test of a row. -/
def CountsRows (f : Findline1) (mk : Int → Int → Huan2) (p : Int → Bool) : Prop :=
  ∀ i cout, (huan2Step f i (mk cout 1)).val =
    if cout + (if p i = true then 1 else 0) ≥ 3 then
      .done (mk (cout + if p i = true then 1 else 0) 2)
    else .yield (mk (cout + if p i = true then 1 else 0) 1)

theorem countsRows_left (f : Findline1) :
    CountsRows f (fun cout js => ⟨cout, js, 0⟩) fun i => (leftHuan2At f i).val := by
  intro i cout
  cases htest : (leftHuan2At f i).val with
  | true => simp only [huan2Step, htest]; simp [htest]
  | false => simp only [huan2Step, htest]; simp [htest]

theorem countsRows_right (f : Findline1) :
    CountsRows f (fun cout js => ⟨cout, 0, js⟩) fun i => (rightHuan2At f i).val := by
  intro i cout
  cases htest : (rightHuan2At f i).val with
  | true => simp [huan2Step, htest]
  | false => simp [huan2Step, htest]

/-- The loop ends at stage 2 where three rows are counted, and at stage 1 elsewhere. -/
theorem huan2_loop {f : Findline1} {mk : Int → Int → Huan2} {p : Int → Bool}
    (hcount : CountsRows f mk p) (lo : Int) :
    ∃ cout, (forDown 95 lo (mk 0 1) (huan2Step f)).val = mk cout 1 ∧ countRows p lo 95 < 3 ∨
      (forDown 95 lo (mk 0 1) (huan2Step f)).val = mk cout 2 ∧ 3 ≤ countRows p lo 95 := by
  refine forDown_rule (fun i c => c = mk (countRows p i 95) 1 ∧ countRows p i 95 < 3)
    (fun c => ∃ cout, c = mk cout 1 ∧ countRows p lo 95 < 3 ∨
      c = mk cout 2 ∧ 3 ≤ countRows p lo 95)
    (by simp [countRows_self]) ?_ ?_
  · rintro i c hlo hhi ⟨rfl, hfew⟩
    have hpred := countRows_pred p hhi
    have hcast : ((countRows p i 95 : Int) + if p i = true then 1 else 0) =
        (countRows p (i - 1) 95 : Int) := by
      rw [hpred]
      split <;> simp
    rw [hcount i, hcast]
    split
    next hthree =>
      refine ⟨_, Or.inr ⟨rfl, ?_⟩⟩
      have hmono := countRows_mono p (show lo ≤ i - 1 by omega) 95
      omega
    next hthree => exact ⟨rfl, by omega⟩
  · rintro c ⟨hc, hfew⟩
    refine ⟨_, Or.inl ⟨hc, ?_⟩⟩
    -- beyond row 95 the loop does not run and the range is empty
    rcases le_total lo 95 with hle | hle
    · rwa [min_eq_left hle] at hfew
    · rw [countRows, Finset.Ioc_eq_empty (by omega)]
      simp

/-- What `find_huan2` leaves behind, from a frame at stage 1. -/
structure Huan2Spec (s t : Lines) : Prop where
  stage : OneSide 2 t.js1 t.js2
  rest : t = { s with js1 := t.js1, js2 := t.js2 }
  left : t.js1 = 2 → s.js1 = 1 ∧
    3 ≤ countRows (fun i => (leftHuan2At s.f1 i).val) s.f2.toppoint 95
  right : t.js2 = 2 → s.js2 = 1 ∧
    3 ≤ countRows (fun i => (rightHuan2At s.f1 i).val) s.f2.toppoint 95

theorem findHuan2_spec {s : Lines} (h : OneSide 1 s.js1 s.js2) (hone : s.js1 = 1 ∨ s.js2 = 1) :
    Huan2Spec s (findHuan2 s).val := by
  rcases hone with hone | hone
  · have hother : s.js2 = 0 := by have := h.one; omega
    obtain ⟨cout, hval⟩ := huan2_loop (countsRows_left s.f1) s.f2.toppoint
    simp only [findHuan2, val_bind, val_pure, hone, hother]
    rcases hval with ⟨hval, -⟩ | ⟨hval, hthree⟩
    · rw [hval]
      exact ⟨⟨Or.inl rfl, Or.inl rfl, Or.inl rfl⟩, rfl, fun h => by simp at h,
        fun h => by simp at h⟩
    · rw [hval]
      exact ⟨⟨Or.inr rfl, Or.inl rfl, Or.inr rfl⟩, rfl, fun _ => ⟨hone, hthree⟩,
        fun h => by simp at h⟩
  · have hother : s.js1 = 0 := by have := h.one; omega
    obtain ⟨cout, hval⟩ := huan2_loop (countsRows_right s.f1) s.f2.toppoint
    simp only [findHuan2, val_bind, val_pure, hone, hother]
    rcases hval with ⟨hval, -⟩ | ⟨hval, hthree⟩
    · rw [hval]
      exact ⟨⟨Or.inl rfl, Or.inl rfl, Or.inl rfl⟩, rfl, fun h => by simp at h,
        fun h => by simp at h⟩
    · rw [hval]
      exact ⟨⟨Or.inl rfl, Or.inr rfl, Or.inl rfl⟩, rfl, fun h => by simp at h,
        fun _ => ⟨hone, hthree⟩⟩

/-! ## `find_huan3` -/

/-- What `find_huan3` leaves behind, from a frame at stage 2. -/
structure Huan3Spec (img : Image) (s t : Lines) : Prop where
  stage : OneSide 3 t.js1 t.js2
  rest : t = { s with js1 := t.js1, js2 := t.js2, f2 := t.f2 }
  f2 : t.f2 = if t.js1 = 3 ∨ t.js2 = 3 then s.clearShizi.f2 else s.f2
  left : t.js1 = 3 → s.js1 = 2 ∧ ∃ i, 35 < i ∧ i ≤ 100 ∧ (leftHuan3At img s.f1 i).val = true
  right : t.js2 = 3 → s.js2 = 2 ∧ ∃ i, 35 < i ∧ i ≤ 100 ∧ (rightHuan3At img s.f1 i).val = true

theorem findHuan3_spec (img : Image) {s : Lines} (h : OneSide 2 s.js1 s.js2)
    (htwo : s.js1 = 2 ∨ s.js2 = 2) : Huan3Spec img s (findHuan3 img s).val := by
  have hscan := scanDown_spec 100 35 (huan3At img s)
  simp only [findHuan3, val_bind, val_pure]
  generalize (scanDown 100 35 (huan3At img s)).val = found at hscan ⊢
  cases found with
  | none =>
      have hdrop : (if (none : Option Int).isSome then s.promoteHuan else s).dropHuan =
          { s with js1 := 0, js2 := 0 } := by
        simp [Lines.dropHuan, htwo]
      rw [hdrop]
      exact ⟨⟨Or.inl rfl, Or.inl rfl, Or.inl rfl⟩, rfl, by simp, by simp, by simp⟩
  | some i =>
      obtain ⟨hlo, hhi, htest, -⟩ := hscan
      rcases htwo with htwo | htwo
      · have hother : s.js2 = 0 := by have := h.one; omega
        have hpromote : (if (some i).isSome then s.promoteHuan else s).dropHuan =
            { s.clearShizi with js1 := 3 } := by
          simp [Lines.promoteHuan, Lines.dropHuan, Lines.clearShizi, htwo, hother]
        rw [hpromote]
        refine ⟨⟨Or.inr rfl, Or.inl hother, Or.inr hother⟩, rfl, by simp, fun _ => ?_, ?_⟩
        · exact ⟨htwo, i, hlo, hhi, by simpa [huan3At, htwo, hother] using htest⟩
        · simp [Lines.clearShizi, hother]
      · have hother : s.js1 = 0 := by have := h.one; omega
        have hpromote : (if (some i).isSome then s.promoteHuan else s).dropHuan =
            { s.clearShizi with js2 := 3 } := by
          simp [Lines.promoteHuan, Lines.dropHuan, Lines.clearShizi, htwo, hother]
        rw [hpromote]
        refine ⟨⟨Or.inl hother, Or.inr rfl, Or.inl hother⟩, rfl, by simp, ?_, fun _ => ?_⟩
        · simp [Lines.clearShizi, hother]
        · exact ⟨htwo, i, hlo, hhi, by simpa [huan3At, htwo, hother] using htest⟩

/-! ## The stages of a frame -/

/-- What the second and third stage leave behind, from a frame at stage 1. -/
structure RingStagesSpec (img : Image) (s t : Lines) : Prop where
  stage : OneSide 3 t.js1 t.js2
  rest : t = { s with js1 := t.js1, js2 := t.js2, f2 := t.f2 }
  f2 : t.f2 = if t.js1 = 3 ∨ t.js2 = 3 then s.clearShizi.f2 else s.f2
  left : t.js1 = 3 → s.js1 = 1 ∧
    3 ≤ countRows (fun i => (leftHuan2At s.f1 i).val) s.f2.toppoint 95 ∧
    ∃ i, 35 < i ∧ i ≤ 100 ∧ (leftHuan3At img s.f1 i).val = true
  right : t.js2 = 3 → s.js2 = 1 ∧
    3 ≤ countRows (fun i => (rightHuan2At s.f1 i).val) s.f2.toppoint 95 ∧
    ∃ i, 35 < i ∧ i ≤ 100 ∧ (rightHuan3At img s.f1 i).val = true

/-- The state between the second and the third stage. -/
theorem huan2_spec {s : Lines} (h : OneSide 1 s.js1 s.js2) :
    Huan2Spec s (onlyIf (s.js1 = 1 ∨ s.js2 = 1) findHuan2 s).val := by
  by_cases hone : s.js1 = 1 ∨ s.js2 = 1
  · simpa [hone] using findHuan2_spec h hone
  · have hzero : s.js1 = 0 ∧ s.js2 = 0 := by
      have hleft := h.left
      have hright := h.right
      omega
    simp only [val_onlyIf, hone, if_false]
    refine ⟨⟨Or.inl hzero.1, Or.inl hzero.2, Or.inl hzero.1⟩, rfl, ?_, ?_⟩
    · omega
    · omega

theorem ringStages_spec (img : Image) {s : Lines} (h : OneSide 1 s.js1 s.js2) :
    RingStagesSpec img s (ringStages img s).val := by
  obtain ⟨hstage, hrest, hleft, hright⟩ := huan2_spec h
  simp only [ringStages, val_bind]
  generalize (onlyIf (s.js1 = 1 ∨ s.js2 = 1) findHuan2 s).val = t at hstage hrest hleft hright ⊢
  have hf1 : t.f1 = s.f1 := by rw [hrest]
  have hf2 : t.f2 = s.f2 := by rw [hrest]
  have hclear : t.clearShizi.f2 = s.clearShizi.f2 := by rw [hrest]; rfl
  by_cases htwo : t.js1 = 2 ∨ t.js2 = 2
  · obtain ⟨hstage₃, hrest₃, hf2₃, hleft₃, hright₃⟩ := findHuan3_spec img hstage htwo
    simp only [val_onlyIf, htwo, if_true]
    generalize (findHuan3 img t).val = u at hstage₃ hrest₃ hf2₃ hleft₃ hright₃ ⊢
    refine ⟨hstage₃, by rw [hrest₃, hrest], by rw [hf2₃, hclear, hf2], fun hthree => ?_,
      fun hthree => ?_⟩
    · obtain ⟨htwo, hrow⟩ := hleft₃ hthree
      obtain ⟨hone, hcount⟩ := hleft htwo
      exact ⟨hone, hcount, hf1 ▸ hrow⟩
    · obtain ⟨htwo, hrow⟩ := hright₃ hthree
      obtain ⟨hone, hcount⟩ := hright htwo
      exact ⟨hone, hcount, hf1 ▸ hrow⟩
  · have hzero : t.js1 = 0 ∧ t.js2 = 0 := by
      have hl := hstage.left
      have hr := hstage.right
      omega
    simp only [val_onlyIf, htwo, if_false]
    refine ⟨⟨Or.inl hzero.1, Or.inl hzero.2, Or.inl hzero.1⟩, ?_, ?_, by omega, by omega⟩
    · rw [hrest]
    · simp [hzero.1, hzero.2, hf2]

end SmartCar
