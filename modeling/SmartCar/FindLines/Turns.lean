import SmartCar.FindLines.Columns

/-!
# What a frame keeps of its turns

After `find_curve3` a frame can only withdraw the turns it has flagged. A property of the
turns that survives this holds in every later state of the frame, so it is enough to prove
it where the turns are searched.
-/

namespace SmartCar

open Imperative Logged

/-! ## Properties that withdrawing a turn keeps -/

/-- The two records agree on their turns. -/
structure SameTurns (f2 f2' : Findline2) : Prop where
  leftflag : f2'.leftturnflag = f2.leftturnflag
  leftrow : f2'.leftturnRow = f2.leftturnRow
  rightflag : f2'.rightturnflag = f2.rightturnflag
  rightrow : f2'.rightturnRow = f2.rightturnRow

/-- A property of the turns that is kept when a turn is withdrawn. -/
structure TurnKept (I : Findline2 → Prop) : Prop where
  same : ∀ {f2 f2'}, I f2 → SameTurns f2 f2' → I f2'
  withdraw : ∀ f2 flagL flagR, (flagL = f2.leftturnflag ∨ flagL = 0) →
    (flagR = f2.rightturnflag ∨ flagR = 0) → I f2 →
      I { f2 with leftturnflag := flagL, rightturnflag := flagR }

section Kept

variable {I : Findline2 → Prop} {s : Lines} {f2 : Findline2}

theorem TurnKept.guaiFree (hI : TurnKept I) : GuaiFree I :=
  fun _ _ _ _ _ _ _ h => hI.same h ⟨rfl, rfl, rfl, rfl⟩

theorem TurnKept.shiziFree (hI : TurnKept I) : ShiziFree I :=
  fun _ _ _ h => hI.same h ⟨rfl, rfl, rfl, rfl⟩

theorem TurnKept.huanguaiFree (hI : TurnKept I) : HuanguaiFree I :=
  fun _ _ _ _ _ _ _ h => hI.same h ⟨rfl, rfl, rfl, rfl⟩

theorem countShizi_turns (hI : TurnKept I) (h : I f2) : I (countShizi f2) := by
  have hadvance : I (advanceShizi f2) := advanceShizi_keeps hI.shiziFree h
  refine iteInduction (fun _ => ?_) fun _ => h
  exact iteInduction (fun _ => hI.withdraw _ 0 0 (Or.inr rfl) (Or.inr rfl) hadvance)
    fun _ => hadvance

theorem cornerBlock_turns (hI : TurnKept I) (h : I s.f2) : I (cornerBlock s).val.f2 := by
  refine Returns.onlyIf (Q := fun t : Lines => I t.f2) h fun _ => ?_
  refine Returns.bind (Q := fun t : Lines => I t.f2) ?_ fun t ht => ?_
  · exact Returns.ite (fun _ => h) fun _ => Returns.ite (fun _ => h) fun _ => h
  · refine (judgeGuai_keeps t.f1 hI.guaiFree ht).bind fun f2 hf2 => Returns.pure ?_
    exact dropGuai_keeps hI.guaiFree (countShizi_turns hI hf2)

theorem ringStages_turns (hI : TurnKept I) (img : Image) (h : I s.f2) :
    I (ringStages img s).val.f2 := by
  refine Returns.bind (Q := fun t : Lines => I t.f2) (S := fun t : Lines => I t.f2) ?_
    fun t ht => ?_
  · exact Returns.onlyIf h fun _ => h
  · refine Returns.onlyIf ht fun _ => Returns.bind_any fun found => Returns.pure ?_
    have hclear : I t.clearShizi.f2 := hI.shiziFree _ _ _ ht
    have hpromote : I t.promoteHuan.f2 :=
      iteInduction (motive := fun u : Lines => I u.f2) (fun _ => hclear) fun _ => hclear
    have hfound : I (if found.isSome = true then t.promoteHuan else t).f2 :=
      iteInduction (motive := fun u : Lines => I u.f2) (fun _ => hpromote) fun _ => ht
    exact iteInduction (motive := fun u : Lines => I u.f2) (fun _ => hfound) fun _ => hfound

theorem ringFlags_turns (hI : TurnKept I) (h : I s.f2) : I (ringFlags s).f2 := by
  have hright : I (rightRingFlag s).f2 := iteInduction (motive := fun u : Lines => I u.f2)
    (fun _ => hI.same h ⟨rfl, rfl, rfl, rfl⟩) fun _ => h
  have hleft : I (leftRingFlag (rightRingFlag s)).f2 :=
    iteInduction (motive := fun u : Lines => I u.f2)
      (fun _ => hI.same hright ⟨rfl, rfl, rfl, rfl⟩) fun _ => hright
  exact iteInduction (motive := fun u : Lines => I u.f2) (fun _ => hleft) fun _ => h

theorem Redrawn.keeps {t : Lines} (h : Redrawn s t) (hs : I s.f2) : I t.f2 := by
  rwa [h.f2]

/-- Each side of the ring block withdraws the turn of its side. -/
theorem leftRing_turns (hI : TurnKept I) (h : I s.f2) : I (leftRing s).val.f2 := by
  refine Returns.onlyIf (Q := fun t : Lines => I t.f2) h fun _ => ?_
  refine Returns.bind (Q := fun t : Lines => I t.f2) ?_ fun t ht => ?_
  · exact leftRingRedraw_redrawn.keeps h
  · refine (findHuanguai_keeps t.f1 hI.huanguaiFree ht).bind fun f2 hf2 => Returns.pure ?_
    split
    · exact hI.withdraw _ 0 _ (Or.inr rfl) (Or.inl rfl) (hI.same hf2 ⟨rfl, rfl, rfl, rfl⟩)
    · exact hI.withdraw f2 0 _ (Or.inr rfl) (Or.inl rfl) hf2

theorem rightRing_turns (hI : TurnKept I) (h : I s.f2) : I (rightRing s).val.f2 := by
  refine Returns.onlyIf (Q := fun t : Lines => I t.f2) h fun _ => ?_
  refine Returns.bind (Q := fun t : Lines => I t.f2) ?_ fun t ht => ?_
  · exact rightRingRedraw_redrawn.keeps h
  · refine (findHuanguai_keeps t.f1 hI.huanguaiFree ht).bind fun f2 hf2 => Returns.pure ?_
    split
    · exact hI.withdraw _ _ 0 (Or.inl rfl) (Or.inr rfl) (hI.same hf2 ⟨rfl, rfl, rfl, rfl⟩)
    · exact hI.withdraw f2 _ 0 (Or.inl rfl) (Or.inr rfl) hf2

theorem ringCompensate_turns (hI : TurnKept I) (h : I s.f2) : I (ringCompensate s).val.f2 :=
  rightRing_turns hI (leftRing_turns hI h)

theorem findToppoint_turns (hI : TurnKept I) (img : Image) (f1 : Findline1) (h : I f2) :
    I (findToppoint img f1 f2).val := by
  obtain ⟨found, hval, -⟩ := findToppoint_val img f1 f2
  rw [hval]
  cases found with
  | none => exact h
  | some i => exact hI.same h ⟨rfl, rfl, rfl, rfl⟩

theorem ringBlock_turns (hI : TurnKept I) (img : Image) (h : I s.f2) :
    I (ringBlock img s).val.f2 :=
  Returns.onlyIf (Q := fun t : Lines => I t.f2) h fun _ =>
    findToppoint_turns hI img _ (ringCompensate_turns hI h)

theorem huanBlock_turns (hI : TurnKept I) (h : I s.f2) : I (huanBlock s).val.f2 := by
  have hclear : I s.clearShizi.f2 := hI.shiziFree _ _ _ h
  refine Returns.onlyIf (Q := fun t : Lines => I t.f2) h fun _ => ?_
  refine Returns.bind (Q := fun t : Lines => I t.f2) ?_ fun t ht => ?_
  · refine Returns.onlyIf hclear fun _ => Returns.bind_any fun found => Returns.pure ?_
    exact iteInduction (motive := fun u : Lines => I u.f2)
      (fun _ => hI.same hclear ⟨rfl, rfl, rfl, rfl⟩) fun _ => hclear
  · refine Returns.onlyIf ht fun _ => Returns.bind_any fun found => Returns.pure ?_
    exact iteInduction (motive := fun u : Lines => I u.f2)
      (fun _ => hI.same ht ⟨rfl, rfl, rfl, rfl⟩) fun _ => ht

theorem huanExitBlock_turns (hI : TurnKept I) (short : Int) (h : I s.f2) :
    I (huanExitBlock short s).val.f2 := by
  have hclear : I s.clearTurns.f2 := by
    have hwithdrawn := hI.withdraw s.f2 0 0 (Or.inr rfl) (Or.inr rfl) h
    exact hI.same hwithdrawn ⟨rfl, rfl, rfl, rfl⟩
  refine Returns.onlyIf (Q := fun t : Lines => I t.f2) h fun _ => ?_
  refine Returns.bind (Q := fun t : Lines => I t.f2) ?_ fun t ht => ?_
  · exact exitRedraw_redrawn.keeps hclear
  · refine Returns.bind_any fun m => Returns.pure ?_
    exact iteInduction (motive := fun u : Lines => I u.f2)
      (fun _ => hI.same ht ⟨rfl, rfl, rfl, rfl⟩) fun _ => ht

theorem stagesOf_turns (fr : Frame) (hI : TurnKept I)
    (h : I (cornerBlock (cornersOf fr s).val).val.f2) : I (stagesOf fr s).val.f2 :=
  ringStages_turns hI fr.image h

theorem ringsOf_turns (fr : Frame) (hI : TurnKept I) (h : I (stagesOf fr s).val.f2) :
    I (ringsOf fr s).val.f2 :=
  ringBlock_turns hI fr.image (ringFlags_turns hI h)

end Kept

/-! ## The turns that are flagged -/

/-- At most one turn is flagged, a small one with the row at which it was found. -/
structure TurnsValid (f2 : Findline2) : Prop where
  one : OneTurn f2
  left : f2.leftturnflag = 0 ∨ f2.leftturnflag = 1 ∨ f2.leftturnflag = 3
  right : f2.rightturnflag = 0 ∨ f2.rightturnflag = 1 ∨ f2.rightturnflag = 3
  leftrow : f2.leftturnflag = 1 → 31 ≤ f2.leftturnRow ∧ f2.leftturnRow ≤ 115
  rightrow : f2.rightturnflag = 1 → 31 ≤ f2.rightturnRow ∧ f2.rightturnRow ≤ 115

/-- No turn is flagged. -/
def NoTurn (f2 : Findline2) : Prop := f2.leftturnflag = 0 ∧ f2.rightturnflag = 0

theorem noTurn_kept : TurnKept NoTurn where
  same := fun h hsame => ⟨hsame.leftflag.trans h.1, hsame.rightflag.trans h.2⟩
  withdraw := by
    rintro f2 flagL flagR hL hR ⟨hl, hr⟩
    exact ⟨by simp only; omega, by simp only; omega⟩

theorem oneTurn_kept : TurnKept OneTurn where
  same := fun h hsame => by rwa [OneTurn, hsame.leftflag, hsame.rightflag]
  withdraw := by
    intro f2 flagL flagR hL hR h
    unfold OneTurn at h
    simp only [OneTurn]
    omega

theorem turnsValid_kept : TurnKept TurnsValid where
  same := by
    rintro f2 f2' ⟨hone, hl, hr, hlrow, hrrow⟩ ⟨hlf, hlr, hrf, hrr⟩
    constructor
    · rwa [OneTurn, hlf, hrf]
    · rwa [hlf]
    · rwa [hrf]
    · rwa [hlf, hlr]
    · rwa [hrf, hrr]
  withdraw := by
    rintro f2 flagL flagR hL hR ⟨hone, hl, hr, hlrow, hrrow⟩
    unfold OneTurn at hone
    constructor <;> simp only [OneTurn] <;> omega

section Search

variable {f2 : Findline2} {i : Int}

theorem NoTurn.valid (h : NoTurn f2) : TurnsValid f2 := by
  obtain ⟨hl, hr⟩ := h
  exact ⟨Or.inl hl, Or.inl hl, Or.inl hr, by omega, by omega⟩

theorem NoTurn.takeLeft (h : NoTurn f2) (hlo : 31 ≤ i) (hhi : i ≤ 115) :
    TurnsValid { f2 with leftturnRow := i, leftturnflag := 1 } :=
  ⟨Or.inr h.2, Or.inr (Or.inl rfl), Or.inl h.2, fun _ => ⟨hlo, hhi⟩, fun hr => by
    have hnone := h.2
    simp only at hr
    omega⟩

theorem NoTurn.takeRight (h : NoTurn f2) (hlo : 31 ≤ i) (hhi : i ≤ 115) :
    TurnsValid { f2 with rightturnRow := i, rightturnflag := 1 } :=
  ⟨Or.inl h.1, Or.inl h.1, Or.inr (Or.inl rfl), fun hl => by
    have hnone := h.1
    simp only at hl
    omega, fun _ => ⟨hlo, hhi⟩⟩

theorem TurnsValid.clearLeft (h : TurnsValid f2) :
    TurnsValid { f2 with leftturnRow := 0, leftturnflag := 0 } :=
  ⟨Or.inl rfl, Or.inl rfl, h.right, by simp, h.rightrow⟩

theorem TurnsValid.clearRight (h : TurnsValid f2) :
    TurnsValid { f2 with rightturnRow := 0, rightturnflag := 0 } :=
  ⟨Or.inr rfl, h.left, Or.inl rfl, h.leftrow, by simp⟩

/-- The guards of a small turn can only clear one side or the other. -/
theorem takeLeftCurve1_valid (loseCnt : Int) (f1 : Findline1) (hlo : 31 ≤ i) (hhi : i ≤ 115)
    (h : NoTurn f2) : Returns TurnsValid (takeLeftCurve1 loseCnt f1 i f2) := by
  have htaken := h.takeLeft hlo hhi
  refine Returns.bind_any fun far => ?_
  have hfar : TurnsValid (if far = true then
      { f2 with leftturnRow := i, leftturnflag := 1, rightturnRow := 0, rightturnflag := 0 }
      else { f2 with leftturnRow := i, leftturnflag := 1 }) :=
    iteInduction (fun _ => htaken.clearRight) fun _ => htaken
  exact Returns.onlyIf hfar fun _ => Returns.bind_any fun lose =>
    Returns.pure (iteInduction (fun _ => hfar.clearLeft) fun _ => hfar)

theorem takeRightCurve1_valid (loseCnt : Int) (f1 : Findline1) (hlo : 31 ≤ i) (hhi : i ≤ 115)
    (h : NoTurn f2) : Returns TurnsValid (takeRightCurve1 loseCnt f1 i f2) := by
  have htaken := h.takeRight hlo hhi
  refine Returns.bind_any fun far => ?_
  have hfar : TurnsValid (if far = true then
      { f2 with rightturnRow := i, rightturnflag := 1, leftturnRow := 0, leftturnflag := 0 }
      else { f2 with rightturnRow := i, rightturnflag := 1 }) :=
    iteInduction (fun _ => htaken.clearLeft) fun _ => htaken
  exact Returns.onlyIf hfar fun _ => Returns.bind_any fun lose =>
    Returns.pure (iteInduction (fun _ => hfar.clearRight) fun _ => hfar)

/-- The search ends with the first turn that it takes. -/
theorem findCurve1_valid (loseCnt : Int) (f1 : Findline1) (h : NoTurn f2) :
    Returns TurnsValid (findCurve1 loseCnt f1 f2) := by
  refine forDown_rule (fun _ => NoTurn) TurnsValid h ?_ fun _ h => h.valid
  intro i f2 hlo hhi h
  change Returns (Continues _ TurnsValid) _
  refine Returns.bind_any fun lost => Returns.ite (fun _ => ?_) fun _ => ?_
  · refine Returns.bind (Q := fun at' => at' = (leftCurve1At f1 f2 i).val) rfl ?_
    rintro _ rfl
    refine Returns.ite (fun hat => ?_) fun _ => Returns.pure h
    have hrow := leftCurve1At_row f1 hat
    exact (takeLeftCurve1_valid loseCnt f1 hrow hhi h).bind fun f2 h => Returns.pure h
  · refine Returns.bind_any fun lost => Returns.ite (fun _ => ?_) fun _ => Returns.pure h
    refine Returns.bind (Q := fun at' => at' = (rightCurve1At f1 f2 i).val) rfl ?_
    rintro _ rfl
    refine Returns.ite (fun hat => ?_) fun _ => Returns.pure h
    have hrow := rightCurve1At_row f1 hat
    exact (takeRightCurve1_valid loseCnt f1 hrow hhi h).bind fun f2 h => Returns.pure h

/-- A deep turn is only flagged where there is no small one. -/
theorem findCurve3_valid (f1 : Findline1) (h : TurnsValid f2) :
    Returns TurnsValid (findCurve3 f1 f2) := by
  refine Returns.onlyIf h fun hnone => ?_
  obtain ⟨hl, hr⟩ := hnone
  have hleft : TurnsValid { f2 with leftturnflag := 3 } :=
    ⟨Or.inr hr, Or.inr (Or.inr rfl), Or.inl hr, by simp, h.rightrow⟩
  have hright : TurnsValid { f2 with rightturnflag := 3 } :=
    ⟨Or.inl hl, Or.inl hl, Or.inr (Or.inr rfl), h.leftrow, by simp⟩
  refine Returns.bind_any fun flags => Returns.bind_any fun flagL => Returns.bind_any fun flagR =>
    Returns.pure ?_
  exact iteInduction (fun _ => hleft) fun _ => iteInduction (fun _ => hright) fun _ => h

theorem cornersOf_valid (fr : Frame) (s : Lines) : TurnsValid (cornersOf fr s).val.f2 := by
  refine Returns.bind (Q := NoTurn) (S := fun t : Lines => TurnsValid t.f2) ?_ fun f2 h =>
    Returns.bind (Q := TurnsValid) ?_ fun f2 h => Returns.bind (Q := TurnsValid) ?_ fun f2 h => ?_
  · exact Returns.onlyIf ⟨rfl, rfl⟩ fun _ => findGuai_keeps _ noTurn_kept.guaiFree ⟨rfl, rfl⟩
  · exact Returns.onlyIf h.valid fun _ => findCurve1_valid _ _ h
  · exact Returns.onlyIf h fun _ => findCurve3_valid _ h
  · exact h

end Search

end SmartCar
