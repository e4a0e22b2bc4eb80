import SmartCar.FindLines.EdgeLaws
import SmartCar.FindLines.Findline2

/-!
# What each block leaves unchanged

The detection functions write their own fields of `f2` only. A block that
redraws the centre line writes `midline`, and where it fills a border also the
two edges; the edge flags, `f2`, the ring counters and `column_start` stay as
they are.
-/

namespace SmartCar

open Imperative Logged

/-! ## Fields of `f2` -/

section Fields

variable (img : Image) (f1 : Findline1) {f2 : Findline2} {I : Findline2 → Prop}

/-- A property that does not look at the corners of a crossing. -/
def GuaiFree (I : Findline2 → Prop) : Prop :=
  ∀ f2 flagL rowL columnL flagR rowR columnR, I f2 → I { f2 with
    leftguaiflag := flagL, leftguaiRow := rowL, leftguaiColumn := columnL
    rightguaiflag := flagR, rightguaiRow := rowR, rightguaiColumn := columnR }

/-- A property that does not look at the turns. -/
def TurnFree (I : Findline2 → Prop) : Prop :=
  ∀ f2 flagL rowL flagR rowR, I f2 → I { f2 with
    leftturnflag := flagL, leftturnRow := rowL, rightturnflag := flagR, rightturnRow := rowR }

/-- A property that does not look at the crossing counter. -/
def ShiziFree (I : Findline2 → Prop) : Prop :=
  ∀ f2 flag0 flag1, I f2 → I { f2 with shiziflag0 := flag0, shiziflag1 := flag1 }

/-- A property that does not look at the corners of a ring. -/
def HuanguaiFree (I : Findline2 → Prop) : Prop :=
  ∀ f2 flagL rowL columnL flagR rowR columnR, I f2 → I { f2 with
    lefthuanguaiflag := flagL, lefthuanguaiRow := rowL, lefthuanguaiColumn := columnL
    righthuanguaiflag := flagR, righthuanguaiRow := rowR, righthuanguaiColumn := columnR }

theorem findGuai_keeps (hI : GuaiFree I) (h : I f2) : Returns I (findGuai f1 f2) := by
  have hleft : ∀ f2, I f2 → Returns I (findLeftguai f1 f2) := by
    intro f2 h
    refine Returns.bind_any ?_
    rintro (_ | i)
    · exact Returns.pure h
    · exact Returns.bind_any fun c => Returns.pure (hI f2 _ _ _ _ _ _ h)
  have hright : ∀ f2, I f2 → Returns I (findRightguai f1 f2) := by
    intro f2 h
    refine Returns.bind_any ?_
    rintro (_ | i)
    · exact Returns.pure h
    · exact Returns.bind_any fun c => Returns.pure (hI f2 _ _ _ _ _ _ h)
  refine Returns.onlyIf h fun _ => ?_
  refine (Returns.onlyIf h fun _ => hleft f2 h).bind fun f2 h => ?_
  exact Returns.onlyIf h fun _ => hright f2 h

theorem takeLeftCurve1_keeps (hI : TurnFree I) (loseCnt i : Int) (h : I f2) :
    Returns I (takeLeftCurve1 loseCnt f1 i f2) := by
  refine Returns.bind_any fun far => ?_
  have hfar : I (if far = true then
      { f2 with leftturnRow := i, leftturnflag := 1, rightturnRow := 0, rightturnflag := 0 }
      else { f2 with leftturnRow := i, leftturnflag := 1 }) :=
    iteInduction (fun _ => hI f2 _ _ _ _ h) fun _ => hI f2 _ _ _ _ h
  exact Returns.onlyIf hfar fun _ => Returns.bind_any fun lose =>
    Returns.pure (iteInduction (fun _ => hI _ _ _ _ _ hfar) fun _ => hfar)

theorem takeRightCurve1_keeps (hI : TurnFree I) (loseCnt i : Int) (h : I f2) :
    Returns I (takeRightCurve1 loseCnt f1 i f2) := by
  refine Returns.bind_any fun far => ?_
  have hfar : I (if far = true then
      { f2 with rightturnRow := i, rightturnflag := 1, leftturnRow := 0, leftturnflag := 0 }
      else { f2 with rightturnRow := i, rightturnflag := 1 }) :=
    iteInduction (fun _ => hI f2 _ _ _ _ h) fun _ => hI f2 _ _ _ _ h
  exact Returns.onlyIf hfar fun _ => Returns.bind_any fun lose =>
    Returns.pure (iteInduction (fun _ => hI _ _ _ _ _ hfar) fun _ => hfar)

theorem findCurve1_keeps (hI : TurnFree I) (loseCnt : Int) (h : I f2) :
    Returns I (findCurve1 loseCnt f1 f2) := by
  refine forDown_rule (fun _ => I) I h ?_ fun _ h => h
  intro i f2 hlo hhi h
  change Returns (Continues I I) _
  refine Returns.bind_any fun lost => Returns.ite (fun _ => ?_) fun _ => ?_
  · refine Returns.bind_any fun curve => Returns.ite (fun _ => ?_) fun _ => Returns.pure h
    exact (takeLeftCurve1_keeps f1 hI loseCnt i h).bind fun f2 h => Returns.pure h
  · refine Returns.bind_any fun lost => Returns.ite (fun _ => ?_) fun _ => Returns.pure h
    refine Returns.bind_any fun curve => Returns.ite (fun _ => ?_) fun _ => Returns.pure h
    exact (takeRightCurve1_keeps f1 hI loseCnt i h).bind fun f2 h => Returns.pure h

theorem findCurve3_keeps (hI : TurnFree I) (h : I f2) : Returns I (findCurve3 f1 f2) := by
  refine Returns.onlyIf h fun _ => ?_
  refine Returns.bind_any fun flags => Returns.bind_any fun flagL => Returns.bind_any fun flagR =>
    Returns.pure ?_
  exact iteInduction (fun _ => hI f2 _ _ _ _ h) fun _ =>
    iteInduction (fun _ => hI f2 _ _ _ _ h) fun _ => h

/-- A property that is kept when a corner of a crossing is withdrawn, whatever becomes of
its coordinates. -/
structure GuaiKept (I : Findline2 → Prop) : Prop where
  left : ∀ f2 row column, I f2 → I { f2 with
    leftguaiflag := 0, leftguaiRow := row, leftguaiColumn := column }
  right : ∀ f2 row column, I f2 → I { f2 with
    rightguaiflag := 0, rightguaiRow := row, rightguaiColumn := column }

theorem GuaiFree.kept (hI : GuaiFree I) : GuaiKept I where
  left := fun f2 row column h => hI f2 0 row column f2.rightguaiflag f2.rightguaiRow _ h
  right := fun f2 row column h => hI f2 f2.leftguaiflag f2.leftguaiRow _ 0 row column h

theorem shiziJudge_kept (hI : GuaiKept I) (h : I f2) : Returns I (shiziJudge f1 f2) := by
  refine (Returns.onlyIf h fun _ => ?_).bind fun f2 h => Returns.onlyIf h fun _ => ?_
  · have hclear : I f2.clearLeftguai := hI.left f2 _ _ h
    refine Returns.ite (fun _ => Returns.pure hclear) fun _ => Returns.bind_any fun lost => ?_
    exact Returns.ite (fun _ => Returns.pure hclear) fun _ => Returns.pure h
  · have hclear : I f2.clearRightguai := hI.right f2 _ _ h
    refine Returns.ite (fun _ => Returns.pure hclear) fun _ => Returns.bind_any fun lost => ?_
    exact Returns.ite (fun _ => Returns.pure hclear) fun _ => Returns.pure h

theorem bothRowLoseJudge_kept (hI : GuaiKept I) (h : I f2) :
    Returns I (bothRowLoseJudge f1 f2) := by
  refine (Returns.onlyIf h fun _ => ?_).bind fun f2 h => Returns.onlyIf h fun _ => ?_
  · exact Returns.bind_any fun found =>
      Returns.pure (iteInduction (fun _ => hI.left f2 _ _ h) fun _ => h)
  · exact Returns.bind_any fun found =>
      Returns.pure (iteInduction (fun _ => hI.right f2 _ _ h) fun _ => h)

theorem keepNearGuai_kept (hI : GuaiKept I) (h : I f2) : I (keepNearGuai f2) := by
  unfold keepNearGuai
  refine iteInduction (fun _ => ?_) fun _ => h
  extract_lets near
  have hnear : I near := iteInduction (fun _ => hI.right f2 _ _ h) fun _ => h
  exact iteInduction (fun _ => hI.left near _ _ hnear) fun _ => hnear

theorem judgeGuai_keeps (hI : GuaiFree I) (h : I f2) : Returns I (judgeGuai f1 f2) :=
  (shiziJudge_kept f1 hI.kept h).bind fun _ h =>
    bothRowLoseJudge_kept f1 hI.kept (keepNearGuai_kept hI.kept h)

theorem dropTurns_keeps (hI : TurnFree I) (h : I f2) : I (dropTurns f2) :=
  iteInduction (fun _ => hI f2 _ _ _ _ h) fun _ => h

theorem advanceShizi_keeps (hI : ShiziFree I) (h : I f2) : I (advanceShizi f2) := by
  unfold advanceShizi
  extract_lets counted
  have hcounted : I counted := iteInduction (fun _ => hI f2 _ _ h) fun _ => h
  exact iteInduction (fun _ => hI counted _ _ hcounted) fun _ => hcounted

theorem countShizi_keeps (hturn : TurnFree I) (hshizi : ShiziFree I) (h : I f2) :
    I (countShizi f2) :=
  iteInduction (fun _ => dropTurns_keeps hturn (advanceShizi_keeps hshizi h)) fun _ => h

theorem dropGuai_kept (hI : GuaiKept I) (h : I f2) : I (dropGuai f2) := by
  unfold dropGuai
  extract_lets left
  have hleft : I left := iteInduction (fun _ => hI.left f2 _ _ h) fun _ => h
  exact iteInduction (fun _ => hI.right left _ _ hleft) fun _ => hleft

theorem dropGuai_keeps (hI : GuaiFree I) (h : I f2) : I (dropGuai f2) := dropGuai_kept hI.kept h

theorem findHuanguai_keeps (hI : HuanguaiFree I) (h : I f2) : Returns I (findHuanguai f1 f2) := by
  refine forDown_rule (fun _ => I) I h ?_ fun _ h => h
  intro i f2 hlo hhi h
  change Returns (Continues I I) _
  refine Returns.bind_any fun left => Returns.ite (fun _ => ?_) fun _ => ?_
  · exact Returns.bind_any fun c => Returns.pure (hI f2 _ _ _ _ _ _ h)
  · refine Returns.bind_any fun right => Returns.ite (fun _ => ?_) fun _ => Returns.pure h
    exact Returns.bind_any fun c => Returns.pure (hI f2 _ _ _ _ _ _ h)

end Fields

/-! ## Arrays -/

/-- Two arrays with the same edge flags. -/
structure SameFlags (f g : Findline1) : Prop where
  left : g.leftlineflag = f.leftlineflag
  right : g.rightlineflag = f.rightlineflag

/-- Two arrays that differ at most in the centre line. -/
structure SameEdges (f g : Findline1) : Prop extends SameFlags f g where
  leftline : g.leftline = f.leftline
  rightline : g.rightline = f.rightline

theorem SameFlags.refl (f : Findline1) : SameFlags f f := ⟨rfl, rfl⟩

theorem SameFlags.trans {f g h : Findline1} (hfg : SameFlags f g) (hgh : SameFlags g h) :
    SameFlags f h :=
  ⟨hgh.left.trans hfg.left, hgh.right.trans hfg.right⟩

theorem SameEdges.refl (f : Findline1) : SameEdges f f := ⟨⟨rfl, rfl⟩, rfl, rfl⟩

theorem SameEdges.setMid {f g : Findline1} (h : SameEdges f g) (i m : Int) :
    SameEdges f (g.setMid i m) := { h with }

section Arrays

variable {hi lo : Int} {target : Findline1 → Int → Logged Access Int} (f : Findline1)

theorem redraw_sameEdges : SameEdges f (redraw hi lo target f).val :=
  foldDown_keeps (fun g => SameEdges f g) (SameEdges.refl f) fun i _ _ _ h => h.setMid i _

theorem bend_sameEdges (meets : Int → Bool) (v r : Int) :
    SameEdges f (bend meets v hi lo target f r).val.1 := by
  refine forDown_rule (fun _ (st : Findline1 × Int) => SameEdges f st.1)
    (fun st => SameEdges f st.1) (SameEdges.refl f) ?_ fun _ h => h
  rintro i ⟨g, t⟩ hlo hhi h
  simp only [val_bind, val_ite, Findline1.storeMid_val, val_pure]
  split
  next => exact h.setMid i v
  next => exact h.setMid i _

theorem fillBorder_sameFlags (r v : Int) : SameFlags f (fillBorder r v f).val :=
  foldDown_keeps (fun g => SameFlags f g) (SameFlags.refl f) fun _ _ _ _ h => ⟨h.left, h.right⟩

theorem bendFill_sameFlags (meets : Int → Bool) (v toppoint r : Int) :
    SameFlags f (bendFill meets v hi lo target toppoint f r).val.1 :=
  (bend_sameEdges f meets v r).toSameFlags.trans (fillBorder_sameFlags _ _ v)

end Arrays

/-- The globals after a block that only redraws the arrays. -/
structure Redrawn (s t : Lines) : Prop where
  rest : t = { s with f1 := t.f1, L := t.L, R := t.R, HL := t.HL, HR := t.HR }
  flags : SameFlags s.f1 t.f1

namespace Redrawn

variable {s t u : Lines}

theorem refl (s : Lines) : Redrawn s s := ⟨rfl, SameFlags.refl s.f1⟩

theorem trans (h : Redrawn s t) (h' : Redrawn t u) : Redrawn s u :=
  ⟨by rw [h'.rest, h.rest], h.flags.trans h'.flags⟩

theorem f2 (h : Redrawn s t) : t.f2 = s.f2 := by rw [h.rest]

end Redrawn

section Blocks

variable {s : Lines} {hi lo : Int} {target : Findline1 → Int → Logged Access Int}

theorem leftBlock_redrawn : Redrawn s (leftBlock hi lo target s).val :=
  ⟨rfl, bendFill_sameFlags _ _ _ _ _⟩

theorem rightBlock_redrawn : Redrawn s (rightBlock hi lo target s).val :=
  ⟨rfl, bendFill_sameFlags _ _ _ _ _⟩

theorem leftRingRedraw_redrawn : Redrawn s (leftRingRedraw s).val := by
  have hphase : Redrawn s (leftRingPhase s).val := ⟨rfl, SameFlags.refl s.f1⟩
  refine hphase.trans ?_
  refine (Returns.onlyIf (Redrawn.refl _) fun _ => ?_).bind (S := Redrawn _) fun t ht => ?_
  · exact ⟨rfl, (redraw_sameEdges _).toSameFlags⟩
  · exact Returns.onlyIf ht fun _ => ht.trans leftBlock_redrawn

theorem rightRingRedraw_redrawn : Redrawn s (rightRingRedraw s).val := by
  have hphase : Redrawn s (rightRingPhase s).val := ⟨rfl, SameFlags.refl s.f1⟩
  refine hphase.trans ?_
  refine Returns.ite (Q := Redrawn _) (fun _ => ?_) fun _ => ?_
  · exact ⟨rfl, (redraw_sameEdges _).toSameFlags⟩
  · exact Returns.onlyIf (Redrawn.refl _) fun _ => rightBlock_redrawn

theorem rightExitBlock_redrawn : Redrawn s (rightExitBlock s).val := by
  refine ⟨rfl, ?_⟩
  have hbend : SameEdges s.f1 (bend meetsRight 159 110 35 rightExitTarget s.f1 s.R).val.1 :=
    bend_sameEdges s.f1 meetsRight 159 s.R
  exact hbend.toSameFlags.trans (fillBorder_sameFlags _ _ 159)

theorem exitRedraw_redrawn : Redrawn s (exitRedraw s).val :=
  Returns.ite (Q := Redrawn s) (fun _ => leftBlock_redrawn) fun _ =>
    Returns.ite (Q := Redrawn s) (fun _ => rightExitBlock_redrawn) fun _ => Redrawn.refl s

theorem turnCompensate_redrawn : Redrawn s (turnCompensate s).val := by
  refine Returns.onlyIf (Q := Redrawn s) (Redrawn.refl s) fun _ => ?_
  refine Returns.bind (Q := Redrawn s) ?_ fun t ht => Returns.bind (Q := Redrawn s) ?_ fun t ht =>
    Returns.bind (Q := Redrawn s) ?_ fun t ht => ?_
  · exact Returns.onlyIf (Redrawn.refl s) fun _ => leftBlock_redrawn
  · exact Returns.onlyIf ht fun _ => ht.trans leftBlock_redrawn
  · exact Returns.onlyIf ht fun _ => ht.trans rightBlock_redrawn
  · exact Returns.onlyIf ht fun _ => ht.trans rightBlock_redrawn

end Blocks

/-! ## Detection -/

/-- Two states that agree on the arrays and on the rows at which they met a border. -/
structure SameDrawing (s t : Lines) : Prop where
  f1 : t.f1 = s.f1
  L : t.L = s.L
  R : t.R = s.R

section Detection

variable {s t u : Lines}

theorem SameDrawing.refl (s : Lines) : SameDrawing s s := ⟨rfl, rfl, rfl⟩

theorem SameDrawing.trans (h : SameDrawing s t) (h' : SameDrawing t u) : SameDrawing s u :=
  ⟨h'.f1.trans h.f1, h'.L.trans h.L, h'.R.trans h.R⟩

theorem findHuan1_rest (s : Lines) :
    (findHuan1 s).val.f1 = s.f1 ∧ (findHuan1 s).val.f2 = s.f2 := by
  simp only [findHuan1, val_ite, val_bind, val_pure]
  split
  next => exact ⟨rfl, rfl⟩
  next =>
    split
    next => exact ⟨rfl, rfl⟩
    next => exact ⟨rfl, rfl⟩

theorem cornerBlock_drawing : SameDrawing s (cornerBlock s).val := by
  refine Returns.onlyIf (Q := SameDrawing s) (SameDrawing.refl s) fun _ => ?_
  refine Returns.bind (Q := SameDrawing s) ?_ fun t ht => ⟨ht.f1, ht.L, ht.R⟩
  exact Returns.ite (fun _ => ⟨rfl, rfl, rfl⟩) fun _ => Returns.ite (fun _ => ⟨rfl, rfl, rfl⟩)
    fun _ => SameDrawing.refl s

theorem ringStages_drawing (img : Image) : SameDrawing s (ringStages img s).val := by
  refine Returns.bind (Q := SameDrawing s) (S := SameDrawing s) ?_ fun t ht => ?_
  · exact Returns.onlyIf (SameDrawing.refl s) fun _ => ⟨rfl, rfl, rfl⟩
  · refine Returns.onlyIf ht fun _ => Returns.bind_any fun found => Returns.pure ?_
    have hpromote : SameDrawing s t.promoteHuan :=
      iteInduction (fun _ => ⟨ht.f1, ht.L, ht.R⟩) fun _ => ⟨ht.f1, ht.L, ht.R⟩
    have hfound : SameDrawing s (if found.isSome = true then t.promoteHuan else t) :=
      iteInduction (fun _ => hpromote) fun _ => ht
    exact iteInduction (fun _ => ⟨hfound.f1, hfound.L, hfound.R⟩) fun _ => hfound

theorem ringFlags_drawing : SameDrawing s (ringFlags s) := by
  have hright : SameDrawing s (rightRingFlag s) :=
    iteInduction (fun _ => ⟨rfl, rfl, rfl⟩) fun _ => SameDrawing.refl s
  have hleft : SameDrawing s (leftRingFlag (rightRingFlag s)) :=
    iteInduction (fun _ => ⟨hright.f1, hright.L, hright.R⟩) fun _ => hright
  exact iteInduction (fun _ => hleft) fun _ => SameDrawing.refl s

theorem huanBlock_drawing : SameDrawing s (huanBlock s).val := by
  refine Returns.onlyIf (Q := SameDrawing s) (SameDrawing.refl s) fun _ => ?_
  refine Returns.bind (Q := SameDrawing s) ?_ fun t ht => ?_
  · exact Returns.onlyIf ⟨rfl, rfl, rfl⟩ fun _ => Returns.bind_any fun found =>
      Returns.pure (iteInduction (fun _ => ⟨rfl, rfl, rfl⟩) fun _ => ⟨rfl, rfl, rfl⟩)
  · exact Returns.onlyIf ht fun _ => Returns.bind_any fun found =>
      Returns.pure (iteInduction (fun _ => ⟨ht.f1, ht.L, ht.R⟩) fun _ => ht)

/-- `findline2` draws nothing before its ring block. -/
theorem stagesOf_drawing (fr : Frame) (s : Lines) :
    SameDrawing (clearFrame s) (stagesOf fr s).val := by
  have hcorners : SameDrawing (clearFrame s) (cornersOf fr s).val := ⟨rfl, rfl, rfl⟩
  exact (hcorners.trans cornerBlock_drawing).trans (ringStages_drawing fr.image)

end Detection

end SmartCar
