import SmartCar.FindLines.Turns
import SmartCar.FindLines.CleanRoad

/-!
# The centre line stays on the image

A frame that drives no ring keeps every entry of the centre line on the 160
columns, whatever the frames before left behind. A frame that drives a ring does
so as long as each redrawing from one edge has room; without it the centre line
leaves the image.
-/

namespace SmartCar

open Imperative Logged

/-! ## The edge search -/

section Search

variable (fr : Frame) {s : Lines}

/-- The centre column lies between the edges on the rows that are searched. -/
def MidBetween (f : Findline1) : Prop :=
  ∀ i, 11 ≤ i → i ≤ 118 → f.leftline i ≤ f.midline i ∧ f.midline i ≤ f.rightline i

theorem EdgeRow.Ordered.columns {row : EdgeRow} (h : row.Ordered) :
    IsColumn row.leftline ∧ IsColumn row.midline ∧ IsColumn row.rightline := by
  have h₁ := h.left_le_mid
  have h₂ := h.mid_le_right
  unfold IsColumn
  rcases h.left_found with hl | hl <;> rcases h.right_found with hr | hr <;> omega

theorem findEdges_columns (img : Image) {f : Findline1} {columnStart : Int} (h : InColumns f)
    (hstart : IsColumn columnStart) : InColumns (findEdges img f columnStart).val.1 ∧
      MidBetween (findEdges img f columnStart).val.1 := by
  have hordered : ∀ i, 11 ≤ i → i ≤ 118 → ((findEdges img f columnStart).val.1.row i).Ordered :=
    fun i hlo hhi => findEdges_ordered img f columnStart hstart.1 hstart.2 hlo hhi
  have hrow : ∀ i, IsColumn ((findEdges img f columnStart).val.1.row i).leftline ∧
      IsColumn ((findEdges img f columnStart).val.1.row i).midline ∧
      IsColumn ((findEdges img f columnStart).val.1.row i).rightline := by
    intro i
    by_cases hin : 11 ≤ i ∧ i ≤ 118
    · exact (hordered i hin.1 hin.2).columns
    · rw [findEdges_outside img f columnStart (by omega)]
      exact ⟨h.left i, h.mid i, h.right i⟩
  exact ⟨⟨fun i => (hrow i).2.1, fun i => (hrow i).1, fun i => (hrow i).2.2⟩, fun i hlo hhi =>
    ⟨(hordered i hlo hhi).left_le_mid, (hordered i hlo hhi).mid_le_right⟩⟩

theorem findline1_f1 : (findline1 fr s).val.f1 = (findEdges fr.image s.f1 s.columnStart).val.1 := by
  simp only [findline1, findline1Rows, val_bind, if_true, val_pure]

theorem findline1_columns (h : InColumns s.f1) (hstart : IsColumn s.columnStart) :
    InColumns (findline1 fr s).val.f1 ∧ MidBetween (findline1 fr s).val.f1 := by
  rw [findline1_f1]
  exact findEdges_columns fr.image h hstart

end Search

/-! ## Blocks that leave the centre line alone -/

section Blocks

variable (fr : Frame) {s : Lines} {f : Findline1}

/-- The arrays are still `f`, and at most one turn is flagged. -/
structure Undrawn (f : Findline1) (t : Lines) : Prop where
  f1 : t.f1 = f
  turn : OneTurn t.f2

theorem stagesOf_undrawn : Undrawn s.f1 (stagesOf fr s).val where
  f1 := (stagesOf_drawing fr s).f1
  turn := stagesOf_turns fr oneTurn_kept (cornerBlock_turns oneTurn_kept (cornersOf_valid fr s).one)

theorem ringFlags_undrawn (h : Undrawn f s) : Undrawn f (ringFlags s) :=
  ⟨ringFlags_drawing.f1.trans h.f1, ringFlags_turns oneTurn_kept h.turn⟩

theorem huanBlock_undrawn (h : Undrawn f s) : Undrawn f (huanBlock s).val :=
  ⟨huanBlock_drawing.f1.trans h.f1, huanBlock_turns oneTurn_kept h.turn⟩

end Blocks

/-! ## Blocks that redraw it -/

section Redraw

variable {s : Lines}

/-- The arrays are columns of the image, and at most one turn is flagged. -/
structure Drawn (t : Lines) : Prop where
  columns : InColumns t.f1
  turn : OneTurn t.f2

theorem leftRingLeave_drawn (h : InColumns s.f1) : Drawn (leftRingLeave s).val := by
  refine Returns.bind_any (S := Drawn) fun f2 => Returns.pure ?_
  split
  · exact ⟨h, Or.inl rfl⟩
  · exact ⟨h, Or.inl rfl⟩

theorem rightRingLeave_drawn (h : InColumns s.f1) : Drawn (rightRingLeave s).val := by
  refine Returns.bind_any (S := Drawn) fun f2 => Returns.pure ?_
  split
  · exact ⟨h, Or.inr rfl⟩
  · exact ⟨h, Or.inr rfl⟩

theorem leftRing_drawn (h : Drawn s) (htop : 3 ≤ s.f2.toppoint)
    (hroom : s.f2.huanleftflag ≠ 0 → LeftRingRoom (leftRingPhase s).val) :
    Drawn (leftRing s).val :=
  Returns.onlyIf (Q := Drawn) h fun hring =>
    leftRingLeave_drawn (leftRingDraw_inColumns h.columns htop (hroom hring))

theorem rightRing_drawn (h : Drawn s) (htop : 3 ≤ s.f2.toppoint)
    (hroom : s.f2.huanrightflag ≠ 0 → RightRingRoom (rightRingPhase s).val) :
    Drawn (rightRing s).val :=
  Returns.onlyIf (Q := Drawn) h fun hring =>
    rightRingLeave_drawn (rightRingDraw_inColumns h.columns htop (hroom hring))

theorem huanBlock_drawn (h : Drawn s) : Drawn (huanBlock s).val := by
  obtain ⟨hf1, hturn⟩ := huanBlock_undrawn (f := s.f1) ⟨rfl, h.turn⟩
  exact ⟨by rw [hf1]; exact h.columns, hturn⟩

/-- No turn is left to compensate, or the centre line is still that of `s`. -/
def NoTurnOr (s t : Lines) : Prop :=
  t.f2.leftturnflag = 0 ∧ t.f2.rightturnflag = 0 ∨ t.f1 = s.f1

/-- The exit block withdraws both turns before it redraws the centre line. -/
theorem huanExitBlock_drawn (short : Int) (h : Drawn s) (htop : 3 ≤ s.f2.toppoint) :
    Drawn (huanExitBlock short s).val ∧ NoTurnOr s (huanExitBlock short s).val := by
  refine Returns.onlyIf (Q := fun t => Drawn t ∧ NoTurnOr s t) ⟨h, Or.inr rfl⟩ fun _ => ?_
  refine Returns.bind (Q := fun t => InColumns t.f1 ∧ t.f2 = s.clearTurns.f2) ?_
    fun t ht => Returns.bind_any fun m => Returns.pure ?_
  · refine ⟨?_, exitRedraw_redrawn.f2⟩
    refine Returns.ite (Q := fun t : Lines => InColumns t.f1) (fun _ => ?_) fun _ => ?_
    · exact leftExitBlock_inColumns h.columns htop
    · exact Returns.ite (Q := fun t : Lines => InColumns t.f1)
        (fun _ => rightExitBlock_inColumns h.columns) fun _ => h.columns
  · obtain ⟨hcols, hf2⟩ := ht
    have hleft : t.f2.leftturnflag = 0 := by rw [hf2]; rfl
    have hright : t.f2.rightturnflag = 0 := by rw [hf2]; rfl
    split
    · exact ⟨⟨hcols, Or.inl hleft⟩, Or.inl ⟨hleft, hright⟩⟩
    · exact ⟨⟨hcols, Or.inl hleft⟩, Or.inl ⟨hleft, hright⟩⟩

theorem TurnRoom.of_between (h : InColumns s.f1) (hbetween : MidBetween s.f1)
    (hrows : RowsRecorded s.f2) : TurnRoom s := by
  refine ⟨fun hturn => ?_, fun hturn => ?_⟩
  · have hrow := hrows.leftturn hturn
    exact LeftTurnRoom.of_le h (hbetween _ (by omega) (by omega)).2 _
  · have hrow := hrows.rightturn hturn
    exact RightTurnRoom.of_le h (hbetween _ (by omega) (by omega)).1

theorem TurnRoom.of_none (hleft : s.f2.leftturnflag = 0) (hright : s.f2.rightturnflag = 0) :
    TurnRoom s :=
  ⟨fun h => by omega, fun h => by omega⟩

end Redraw

/-! ## Frames -/

section Frames

/-- The frame up to the point where the ring flags of this frame are known. -/
def entered (fr : Frame) (s : Lines) : Lines := ringFlags (stagesOf fr (findline1 fr s).val).val

/-- The frame up to the turn compensation. -/
def exited (fr : Frame) (s : Lines) : Lines :=
  (huanExitBlock fr.shortstraightFlag (huanBlock (ringsOf fr (findline1 fr s).val).val).val).val

/-- The states in which a frame calls `find_toppoint`, in order. -/
def toppointCalls (fr : Frame) (s : Lines) : List Lines :=
  let t := entered fr s
  (findline1Rows fr s).val ::
    if t.f2.huanleftflag ≠ 0 ∨ t.f2.huanrightflag ≠ 0 then
      [(ringCompensate t).val, (turnCompensate (exited fr s)).val]
    else [(turnCompensate (exited fr s)).val]

/-- If the frame drives a ring, the redrawing from one edge and the turn after
it have room. -/
structure FrameRoom (fr : Frame) (s : Lines) : Prop where
  left : (entered fr s).f2.huanleftflag ≠ 0 → LeftRingRoom (leftRingPhase (entered fr s)).val
  right : (leftRing (entered fr s)).val.f2.huanrightflag ≠ 0 →
    RightRingRoom (rightRingPhase (leftRing (entered fr s)).val).val
  turn : (entered fr s).f2.huanleftflag ≠ 0 ∨ (entered fr s).f2.huanrightflag ≠ 0 →
    TurnRoom (exited fr s)

/-- What a run that has room in every frame keeps between frames. -/
structure OnImage (s : Lines) : Prop where
  border : OnBorder s.f1
  columns : InColumns s.f1
  start : IsColumn s.columnStart

variable {fr : Frame} {s : Lines}

theorem entered_columns (fr : Frame) (h : OnImage s) : RowsKnown (entered fr s) ∧
    Drawn (entered fr s) ∧ (entered fr s).f1 = (findline1 fr s).val.f1 := by
  obtain ⟨-, htop, hborder⟩ := findline1_ensures fr h.border
  have hundrawn := ringFlags_undrawn (stagesOf_undrawn fr (s := (findline1 fr s).val))
  refine ⟨ringFlags_rows (stagesOf_ensures fr htop hborder).2, ⟨?_, hundrawn.turn⟩, hundrawn.f1⟩
  change InColumns (ringFlags (stagesOf fr (findline1 fr s).val).val).f1
  rw [hundrawn.f1]
  exact (findline1_columns fr h.columns h.start).1

theorem ringCompensate_drawn (h : OnImage s) (hroom : FrameRoom fr s) :
    Drawn (ringCompensate (entered fr s)).val := by
  obtain ⟨hknown, hdrawn, -⟩ := entered_columns fr h
  have hleft := leftRing_drawn hdrawn hknown.recorded.top.1 hroom.left
  exact rightRing_drawn hleft (leftRing_ensures hknown).2.recorded.top.1 hroom.right

/-- Without a ring flag the ring block does nothing. -/
theorem ringsOf_drawn (h : OnImage s) (hroom : FrameRoom fr s) :
    Drawn (ringsOf fr (findline1 fr s).val).val ∧
      (((entered fr s).f2.huanleftflag ≠ 0 ∨ (entered fr s).f2.huanrightflag ≠ 0) ∨
        (ringsOf fr (findline1 fr s).val).val.f1 = (findline1 fr s).val.f1) := by
  obtain ⟨-, hdrawn, hf1⟩ := entered_columns fr h
  refine Returns.onlyIf (Q := fun t : Lines => Drawn t ∧ (_ ∨ t.f1 = _)) ⟨hdrawn, Or.inr hf1⟩
    fun hring => ?_
  have hcomp := ringCompensate_drawn h hroom
  exact ⟨⟨hcomp.columns, findToppoint_turns oneTurn_kept _ _ hcomp.turn⟩, Or.inl hring⟩

theorem exited_drawn (h : OnImage s) (hroom : FrameRoom fr s) :
    Drawn (exited fr s) ∧ TurnRoom (exited fr s) := by
  obtain ⟨-, htop, hborder⟩ := findline1_ensures fr h.border
  obtain ⟨hrings, hring⟩ := ringsOf_drawn h hroom
  have hknown := huanBlock_ensures (ringsOf_ensures fr htop hborder).2
  have hhuan := huanBlock_undrawn ⟨rfl, hrings.turn⟩
  obtain ⟨hexit, hturns⟩ := huanExitBlock_drawn fr.shortstraightFlag (huanBlock_drawn hrings)
    hknown.2.recorded.top.1
  refine ⟨hexit, ?_⟩
  rcases hring with hring | hsame
  · exact hroom.turn hring
  rcases hturns with ⟨hleft, hright⟩ | hkept
  · exact TurnRoom.of_none hleft hright
  · have hf1 : (exited fr s).f1 = (findline1 fr s).val.f1 := by
      rw [← hsame, ← hhuan.f1]
      exact hkept
    refine TurnRoom.of_between hexit.columns ?_
      (huanExitBlock_ensures fr.shortstraightFlag hknown.2).2.recorded
    rw [hf1]
    exact (findline1_columns fr h.columns h.start).2

theorem limitColumnStart_mem (c : Int) : 10 ≤ limitColumnStart c ∧ limitColumnStart c ≤ 150 := by
  unfold limitColumnStart
  grind

theorem limitColumnStart_column (c : Int) : IsColumn (limitColumnStart c) := by
  have hmem := limitColumnStart_mem c
  exact ⟨by omega, by omega⟩

/-- Every run hands the next frame a start column away from the borders. -/
theorem afterFrames_columnStart (frames : List Frame) :
    10 ≤ (afterFrames frames).columnStart ∧ (afterFrames frames).columnStart ≤ 150 :=
  run_invariant (fun s : Lines => 10 ≤ s.columnStart ∧ s.columnStart ≤ 150)
    (fun _ _ _ => limitColumnStart_mem _) (by decide) frames

/-- One frame with room keeps the centre line on the image. -/
theorem frame_columns (h : OnImage s) (hroom : FrameRoom fr s) :
    (∀ t ∈ toppointCalls fr s, InColumns t.f1) ∧ OnImage (nextFrame fr s) := by
  obtain ⟨hexit, hturn⟩ := exited_drawn h hroom
  have hlast := turnCompensate_inColumns hexit.columns hexit.turn hturn
  refine ⟨?_, (processFrame_ensures fr h.border).2.2, hlast, limitColumnStart_column _⟩
  have hfirst : InColumns (findline1Rows fr s).val.f1 :=
    (findEdges_columns fr.image h.columns h.start).1
  unfold toppointCalls
  dsimp only
  split
  · simpa using ⟨hfirst, (ringCompensate_drawn h hroom).columns, hlast⟩
  · simpa using ⟨hfirst, hlast⟩

theorem lines_init_onImage : OnImage Lines.init := by
  have hzero : IsColumn 0 := ⟨le_rfl, by decide⟩
  exact ⟨⟨0, Or.inl rfl, fun _ _ _ => ⟨rfl, rfl, rfl⟩⟩, ⟨fun _ => hzero, fun _ => hzero,
    fun _ => hzero⟩, by decide, by decide⟩

theorem afterFrames_onImage {frames : List Frame}
    (hmeets : Meets FrameRoom nextFrame Lines.init frames) : OnImage (afterFrames frames) :=
  run_invariant_of_meets OnImage (fun _ _ h hroom => (frame_columns h hroom).2) hmeets
    lines_init_onImage

/-- Every entry of the centre line is a column of the image. -/
def MidlineInImage (f : Findline1) : Prop :=
  ∀ i, 0 ≤ i → i ≤ 119 → 0 ≤ f.midline i ∧ f.midline i ≤ 159

theorem InColumns.midlineInImage {f : Findline1} (h : InColumns f) : MidlineInImage f :=
  fun i _ _ => h.mid i

/-- On a centre line inside the image `find_toppoint` reads pixels of the image. -/
theorem findToppoint_inBounds (img : Image) {f1 : Findline1} (f2 : Findline2)
    (h : MidlineInImage f1) : All Access.InBounds (findToppoint img f1 f2) := by
  simp only [findToppoint, all_bind, all_ite, all_pure, and_true]
  refine ⟨all_scanDown fun i hlo hhi => ?_, ?_⟩
  · have hmid := h i (by omega) (by omega)
    simp [toppointEdge, Access.InBounds, Access.InRows, Access.row]
    omega
  · split
    · refine all_scanDown fun i hlo hhi => ?_
      simp [midlineOut, Access.InBounds, Access.InRows, Access.row]
      omega
    · trivial

/-- In a run whose frames have room, the centre line is on the image at every call
of `find_toppoint` of the last frame and after it, so the calls read pixels of
the rows they index. -/
theorem midline_in_image {frames : List Frame} {fr : Frame}
    (hmeets : Meets FrameRoom nextFrame Lines.init (frames ++ [fr])) :
    (∀ t ∈ toppointCalls fr (afterFrames frames),
      MidlineInImage t.f1 ∧ All Access.InBounds (findToppoint fr.image t.f1 t.f2)) ∧
      MidlineInImage (afterFrames (frames ++ [fr])).f1 := by
  obtain ⟨hbefore, hroom, -⟩ := (meets_append frames [fr]).mp hmeets
  obtain ⟨hcalls, hafter⟩ := frame_columns (afterFrames_onImage hbefore) hroom
  refine ⟨fun t ht => ?_, ?_⟩
  · have hmid := (hcalls t ht).midlineInImage
    exact ⟨hmid, findToppoint_inBounds fr.image t.f2 hmid⟩
  · rw [afterFrames, run_concat]
    exact hafter.columns.midlineInImage

theorem entered_band (road : List (Int × Int × Int)) (s : Lines) :
    entered (bandFrame road) s =
      ringFlags (stagesOf (bandFrame road) (bandFindline1 road s)).val := by
  rw [entered, findline1_band]

theorem exited_band (road : List (Int × Int × Int)) (s : Lines) : exited (bandFrame road) s =
    (huanExitBlock 0 (huanBlock (ringsOf (bandFrame road) (bandFindline1 road s)).val).val).val := by
  rw [exited, findline1_band]
  rfl

/-- A left ring whose right edge is far enough away. -/
theorem leftRing_room : FrameRoom (bandFrame leftRingRoad) Lines.init := by
  have hvalues : ((exited (bandFrame leftRingRoad) Lines.init).f2.leftturnflag = 0 ∧
      (exited (bandFrame leftRingRoad) Lines.init).f2.rightturnflag = 0) ∧
      (leftRing (entered (bandFrame leftRingRoad) Lines.init)).val.f2.huanrightflag = 0 ∧
      LeftRingRoom (leftRingPhase (entered (bandFrame leftRingRoad) Lines.init)).val := by
    rw [exited_band, entered_band]
    decide +kernel
  obtain ⟨⟨hl, hr⟩, hright, hroom⟩ := hvalues
  exact ⟨fun _ => hroom, fun hset => absurd hright hset, fun _ => TurnRoom.of_none hl hr⟩

/-- A run of one frame that drives a left ring. -/
theorem midline_in_image_leftRing :
    (∀ t ∈ toppointCalls (bandFrame leftRingRoad) (afterFrames []), MidlineInImage t.f1 ∧
        All Access.InBounds (findToppoint (bandFrame leftRingRoad).image t.f1 t.f2)) ∧
      MidlineInImage (afterFrames ([] ++ [bandFrame leftRingRoad])).f1 :=
  @midline_in_image [] _ ⟨leftRing_room, trivial⟩

/-- A left ring too close to the right border. -/
def farRightRoad : List (Int × Int × Int) :=
  [(116, 70, 159), (81, 100, 150), (80, 110, 150), (77, 100, 150), (31, 0, 150)]

/-- In this frame `find_toppoint` is called with a centre line beyond the right
border. -/
theorem midline_leaves_image :
    ¬ ∀ t ∈ toppointCalls (bandFrame farRightRoad) Lines.init, MidlineInImage t.f1 := by
  have hset : (entered (bandFrame farRightRoad) Lines.init).f2.huanleftflag = 1 ∧
      (ringCompensate (entered (bandFrame farRightRoad) Lines.init)).val.f1.midline 115 = 170 := by
    rw [entered_band]
    decide +kernel
  intro hclaim
  have hmem : (ringCompensate (entered (bandFrame farRightRoad) Lines.init)).val ∈
      toppointCalls (bandFrame farRightRoad) Lines.init := by
    have hring : (entered (bandFrame farRightRoad) Lines.init).f2.huanleftflag ≠ 0 :=
      hset.1.trans_ne (by decide)
    simp [toppointCalls, hring]
  have hcolumn := (hclaim _ hmem 115 (by decide) (by decide)).2
  rw [hset.2] at hcolumn
  exact absurd hcolumn (by decide)

end Frames

end SmartCar
