import SmartCar.FindLines.CleanRoad
import SmartCar.FindLines.RingMachine

/-!
# A ring is entered on full evidence

The stage counters `js1` and `js2` start and end every frame at 0 and are never
both set, so a detection that completes has passed its three stages on the edges
of one frame. The evidence is stated on what `findline1` found.
-/

namespace SmartCar

open Imperative Logged

/-! ## Edge flags -/

/-- Every edge flag is 0 or 1. -/
def FlagsKnown (f : Findline1) : Prop :=
  ∀ i, (f.leftlineflag i = 0 ∨ f.leftlineflag i = 1) ∧
    (f.rightlineflag i = 0 ∨ f.rightlineflag i = 1)

theorem edgeFlag_known (found : Option Int) : edgeFlag found = 0 ∨ edgeFlag found = 1 := by
  cases found with
  | none => exact Or.inl rfl
  | some j => exact Or.inr rfl

theorem findEdges_flags (img : Image) (f : Findline1) (columnStart : Int) (h : FlagsKnown f) :
    FlagsKnown (findEdges img f columnStart).val.1 := by
  refine foldDown_keeps (fun st : Findline1 × Int => FlagsKnown st.1) h ?_
  intro i st hlo hhi hst j
  simp only [val_bind, storeRow_val, val_pure, Findline1.setRow]
  rcases eq_or_ne j i with rfl | hne
  · simp only [Function.update_self, edgeRow, val_bind, val_pure]
    exact ⟨edgeFlag_known _, edgeFlag_known _⟩
  · simp only [Function.update_of_ne hne]
    exact hst j

theorem SameFlags.known {f g : Findline1} (h : SameFlags f g) (hf : FlagsKnown f) :
    FlagsKnown g := by
  intro i
  rw [h.left, h.right]
  exact hf i

/-- The stages are at rest and the edge flags known between frames. -/
theorem reachable_flags {s : Lines} (hs : Reachable s) :
    (s.js1 = 0 ∧ s.js2 = 0) ∧ FlagsKnown s.f1 := by
  obtain ⟨frames, rfl⟩ := hs
  refine run_invariant (fun s : Lines => (s.js1 = 0 ∧ s.js2 = 0) ∧ FlagsKnown s.f1) ?_ ?_ frames
  · rintro fr s ⟨⟨hjs1, hjs2⟩, hflags⟩
    obtain ⟨-, h₁, h₂⟩ := findline1_ring fr (s := s)
    obtain ⟨-, -, -, hsame⟩ := findline2_spec fr (h₁.trans hjs1) (h₂.trans hjs2)
    exact ⟨(nextFrame_ring fr hjs1 hjs2).2,
      hsame.known (findEdges_flags fr.image s.f1 s.columnStart hflags)⟩
  · exact ⟨⟨rfl, rfl⟩, fun _ => ⟨Or.inl rfl, Or.inl rfl⟩⟩

/-! ## Inside a frame -/

/-- `(js1, js2)` in `find_huan1` when its loop has passed the rows above `b`. -/
def huan1Pair (s : Lines) (b : Int) : Int × Int :=
  if s.f2.leftguaiflag = 1 ∧ s.f2.rightguaiflag = 0 then ((huan1Stage s.f1.rflag b).val, s.js2)
  else if s.f2.leftguaiflag = 0 ∧ s.f2.rightguaiflag = 1 then
    (s.js1, (huan1Stage s.f1.lflag b).val)
  else (s.js1, s.js2)

/-- `(js1, js2)` in `find_huan2` when its loop has passed the rows above `b`. -/
def huan2Pair (s : Lines) (b : Int) : Int × Int :=
  let c := (forDown 95 b ⟨0, s.js1, s.js2⟩ (huan2Step s.f1)).val
  (c.js1, c.js2)

/-- The values of `(js1, js2)` between the assignments of a frame, in source
order; `b` is a row reached by the loops of `find_huan1` and `find_huan2`. -/
def stagePairs (fr : Frame) (s : Lines) (b : Int) : List (Int × Int) :=
  let corners := (cornersOf fr s).val
  let judged := (cornerBlock corners).val
  let counted := (onlyIf (judged.js1 = 1 ∨ judged.js2 = 1) findHuan2 judged).val
  let stages := (stagesOf fr s).val
  [(s.js1, s.js2), huan1Pair corners b, (judged.js1, judged.js2), huan2Pair judged b,
    (counted.js1, counted.js2), (counted.promoteHuan.js1, counted.promoteHuan.js2),
    (stages.js1, stages.js2), ((rightRingFlag stages).js1, (rightRingFlag stages).js2),
    ((ringFlags stages).js1, (ringFlags stages).js2),
    ((findline2 fr s).val.js1, (findline2 fr s).val.js2)]

/-- No iteration of `find_huan2` sets a counter while the other one is set. -/
theorem huan2Pair_one {s : Lines} (h : s.js1 = 0 ∨ s.js2 = 0) (b : Int) :
    (huan2Pair s b).1 = 0 ∨ (huan2Pair s b).2 = 0 := by
  refine forDown_rule (fun _ (c : Huan2) => c.js1 = 0 ∨ c.js2 = 0)
    (fun c => c.js1 = 0 ∨ c.js2 = 0) h ?_ fun _ h => h
  intro i c hlo hhi hc
  change Returns (Continues _ _) _
  refine Returns.ite (fun hleft => Returns.bind_any fun row => ?_) fun _ =>
    Returns.ite (fun hright => Returns.bind_any fun row => ?_) fun _ => Returns.pure hc
  · have hcount : ∀ c' : Huan2, c'.js2 = c.js2 → c'.js2 = 0 := fun c' h => h.trans hleft.2
    exact Returns.ite (fun _ => Or.inr (hcount _ (by split <;> rfl)))
      fun _ => Or.inr (hcount _ (by split <;> rfl))
  · have hcount : ∀ c' : Huan2, c'.js1 = c.js1 → c'.js1 = 0 := fun c' h => h.trans hright.2
    exact Returns.ite (fun _ => Or.inl (hcount _ (by split <;> rfl)))
      fun _ => Or.inl (hcount _ (by split <;> rfl))

theorem huan1Pair_one {s : Lines} (hjs1 : s.js1 = 0) (hjs2 : s.js2 = 0) (b : Int) :
    (huan1Pair s b).1 = 0 ∨ (huan1Pair s b).2 = 0 := by
  unfold huan1Pair
  split
  next => exact Or.inr hjs2
  next =>
    split
    next => exact Or.inl hjs1
    next => exact Or.inl hjs1

theorem promoteHuan_one {s : Lines} (h : OneSide 2 s.js1 s.js2) :
    s.promoteHuan.js1 = 0 ∨ s.promoteHuan.js2 = 0 := by
  have hone := h.one
  have hleft := h.left
  unfold Lines.promoteHuan
  split
  next htwo => exact Or.inr htwo.2
  next htwo => exact Or.inl (by simp only [Lines.clearShizi]; omega)

theorem stagePairs_one (fr : Frame) {s : Lines} (hjs1 : s.js1 = 0) (hjs2 : s.js2 = 0) (b : Int) :
    ∀ p ∈ stagePairs fr s b, p.1 = 0 ∨ p.2 = 0 := by
  obtain ⟨-, h₁, h₂, -⟩ := cornersOf_ring fr (s := s)
  have hjudged := (judged_spec fr hjs1 hjs2).stage
  have hcounted := (huan2_spec hjudged).stage
  have hstages := (stages_spec fr hjs1 hjs2).stage
  obtain ⟨-, hentered, -⟩ := entered_spec fr hjs1 hjs2
  obtain ⟨-, hend, -⟩ := findline2_spec fr hjs1 hjs2
  simp only [stagePairs, List.forall_mem_cons, List.not_mem_nil, false_imp_iff, implies_true,
    and_true]
  refine ⟨Or.inl hjs1, huan1Pair_one (h₁.trans hjs1) (h₂.trans hjs2) b, hjudged.one,
    huan2Pair_one hjudged.one b, hcounted.one, promoteHuan_one hcounted, hstages.one, ?_,
    Or.inl hentered, Or.inl hend⟩
  unfold rightRingFlag
  split
  next => exact Or.inr rfl
  next => exact hstages.one

/-! ## The evidence -/

/-- What the edges of one frame show when a left ring is entered. -/
structure LeftRingEvidence (f1 : Findline1) (guai : Findline2) (toppoint : Int) : Prop where
  corner : guai.leftguaiflag = 1 ∧ guai.rightguaiflag = 0
  right_edge : ∀ i, toppoint < i → i ≤ 95 → f1.rightlineflag i = 1
  opening : 3 ≤ countRows (fun i => f1.leftlineflag i = 0 ∧ f1.rightlineflag (i + 8) ≠ 0 ∧
    f1.leftlineflag (i + 4) = 1) toppoint 95
  island : ∃ i, 36 ≤ i ∧ i ≤ 100 ∧ f1.leftline i > f1.leftline (i - 5) ∧
    f1.leftline i > f1.leftline (i - 3) ∧ f1.leftline i > f1.leftline (i + 3) ∧
    f1.leftline i > f1.leftline (i + 5) ∧ f1.rightlineflag (i - 3) = 1 ∧
    f1.rightlineflag i = 1 ∧ f1.rightlineflag (i + 3) = 1 ∧
    (f1.rightline i - f1.rightline (i - 3)).natAbs ≤ 6

/-- What the edges of one frame show when a right ring is entered. -/
structure RightRingEvidence (f1 : Findline1) (guai : Findline2) (toppoint : Int) : Prop where
  corner : guai.rightguaiflag = 1 ∧ guai.leftguaiflag = 0
  left_edge : ∀ i, toppoint < i → i ≤ 95 → f1.leftlineflag i = 1
  opening : 3 ≤ countRows (fun i => f1.rightlineflag i = 0 ∧ f1.leftlineflag (i + 8) ≠ 0 ∧
    f1.rightlineflag (i + 4) = 1) toppoint 95
  island : ∃ i, 36 ≤ i ∧ i ≤ 100 ∧ f1.rightline i < f1.rightline (i - 5) ∧
    f1.rightline i < f1.rightline (i - 3) ∧ f1.rightline i < f1.rightline (i + 3) ∧
    f1.rightline i < f1.rightline (i + 5) ∧ f1.leftlineflag (i - 3) = 1 ∧
    f1.leftlineflag i = 1 ∧ f1.leftlineflag (i + 3) = 1 ∧
    (f1.leftline i - f1.leftline (i - 3)).natAbs ≤ 6

section Evidence

variable (fr : Frame) {s : Lines}

/-- What `find_guai` finds on the edges of the frame. -/
def guaiOf (s : Lines) : Findline2 := (findGuai s.f1 (clearFrame s).f2).val

/-- The turn searches leave all but the turns as `find_guai` left it. -/
theorem cornersOf_keeps {I : Findline2 → Prop} (hI : TurnFree I) (h : I (guaiOf s)) :
    I (cornersOf fr s).val.f2 := by
  refine Returns.bind (Q := I) (S := fun t : Lines => I t.f2) h fun f2 h =>
    Returns.bind (Returns.onlyIf h fun _ => findCurve1_keeps _ hI _ h) fun f2 h =>
      Returns.bind (Returns.onlyIf h fun _ => findCurve3_keeps _ hI h) fun f2 h => h

theorem cornersOf_guai : (cornersOf fr s).val.f2.leftguaiflag = (guaiOf s).leftguaiflag ∧
    (cornersOf fr s).val.f2.rightguaiflag = (guaiOf s).rightguaiflag :=
  cornersOf_keeps (I := fun f2 => f2.leftguaiflag = (guaiOf s).leftguaiflag ∧
    f2.rightguaiflag = (guaiOf s).rightguaiflag) fr (fun _ _ _ _ _ h => h) ⟨rfl, rfl⟩

theorem countRows_imp {p q : Int → Bool} (h : ∀ i, p i = true → q i = true) (lo hi : Int) :
    countRows p lo hi ≤ countRows q lo hi := by
  unfold countRows
  exact Finset.card_le_card (Finset.monotone_filter_right _ fun i _ => h i)

theorem LeftEvidence.onEdges (hflags : FlagsKnown s.f1) (h : LeftEvidence fr s) :
    LeftRingEvidence s.f1 (guaiOf s) s.f2.toppoint := by
  obtain ⟨⟨hleft, hright, hopposite⟩, hrows, i, hlo, hhi, hisland⟩ := h
  rw [(cornersOf_guai fr).1] at hleft
  rw [(cornersOf_guai fr).2] at hright
  refine ⟨⟨hleft, hright⟩, fun i hlo hhi => ?_, hrows.trans (countRows_imp ?_ _ _),
    i, by omega, hhi, ?_⟩
  · have hknown := (hflags i).2
    have hfound := hopposite i hlo hhi
    omega
  · intro i hrow
    simp [leftHuan2At] at hrow
    simp [hrow]
  · simp only [leftHuan3At, huan3Probe, val_bind, val_ite, val_pure, val_and, val_gt,
      val_le, val_eq, val_abs, val_sub, val_ofNat, left_val, right_val, rflag_val,
      Bool.if_false_right, Bool.and_eq_true, decide_eq_true_eq] at hisland
    omega

theorem RightEvidence.onEdges (hflags : FlagsKnown s.f1) (h : RightEvidence fr s) :
    RightRingEvidence s.f1 (guaiOf s) s.f2.toppoint := by
  obtain ⟨⟨hright, hleft, hopposite⟩, hrows, i, hlo, hhi, hisland⟩ := h
  rw [(cornersOf_guai fr).1] at hleft
  rw [(cornersOf_guai fr).2] at hright
  refine ⟨⟨hright, hleft⟩, fun i hlo hhi => ?_, hrows.trans (countRows_imp ?_ _ _),
    i, by omega, hhi, ?_⟩
  · have hknown := (hflags i).1
    have hfound := hopposite i hlo hhi
    omega
  · intro i hrow
    simp [rightHuan2At] at hrow
    simp [hrow]
  · simp only [rightHuan3At, huan3Probe, val_bind, val_ite, val_pure, val_and, val_lt,
      val_le, val_eq, val_abs, val_sub, val_ofNat, left_val, right_val, lflag_val,
      Bool.if_false_right, Bool.and_eq_true, decide_eq_true_eq] at hisland
    omega

end Evidence

/-! ## From the flag to the evidence -/

section Steps

variable {g : RingSigns}

theorem count_ringFlags (r : RingState) : (r.count g).huanleftflag = r.huanleftflag ∧
    (r.count g).huanrightflag = r.huanrightflag := by
  unfold RingState.count
  split
  next => split <;> dsimp only <;> split <;> exact ⟨rfl, rfl⟩
  next => exact ⟨rfl, rfl⟩

/-- A property of the ring flags that survives clearing them. -/
structure ClearsFlags (I : RingState → Prop) : Prop where
  left : ∀ r huan js3 js7, I r → I { r with huanleftflag := 0, huan, js3, js7 }
  right : ∀ r huan js4 js8, I r → I { r with huanrightflag := 0, huan, js4, js8 }
  rest : ∀ r huan z₀ z₁ js7 js8, I r →
    I { r with huan, shiziflag0 := z₀, shiziflag1 := z₁, js7, js8 }

/-- After the detection a frame only ever clears the ring flags. -/
theorem ClearsFlags.step {I : RingState → Prop} (hI : ClearsFlags I) {r : RingState}
    (h : I ((r.count g).detect g)) : I (r.step g) := by
  unfold RingState.step
  have hleft : I (((r.count g).detect g).driveLeft g) :=
    iteInduction (fun _ => hI.left _ _ _ _ h) fun _ => h
  have hright : I ((((r.count g).detect g).driveLeft g).driveRight g) :=
    iteInduction (fun _ => hI.right _ _ _ _ hleft) fun _ => hleft
  generalize (((r.count g).detect g).driveLeft g).driveRight g = q at hright
  have hclear : I q.clearShizi := hI.rest q _ _ _ _ _ hright
  have hawait₁ : I (q.clearShizi.awaitLeft g) :=
    iteInduction (fun _ => hI.left _ _ _ _ hclear) fun _ => hclear
  have hawait₂ : I ((q.clearShizi.awaitLeft g).awaitRight g) :=
    iteInduction (fun _ => hI.right _ _ _ _ hawait₁) fun _ => hawait₁
  have hawait : I (q.await g) := iteInduction (fun _ => hawait₂) fun _ => hright
  have hquiet : I (q.await g).clearShizi := hI.rest (q.await g) _ _ _ _ _ hawait
  exact iteInduction (fun _ => iteInduction (fun _ => hI.rest _ _ _ _ _ _ hquiet)
    fun _ => hquiet) fun _ => hawait

theorem leftFound_of_step {r : RingState} (h : r.huanleftflag = 0)
    (hset : (r.step g).huanleftflag ≠ 0) : g.leftFound = true := by
  by_contra hnone
  refine hset (ClearsFlags.step (I := fun r => r.huanleftflag = 0)
    ⟨fun _ _ _ _ _ => rfl, fun _ _ _ _ h => h, fun _ _ _ _ _ _ h => h⟩ ?_)
  -- without a detection the flag is still down when the clearing steps begin
  have hcount : (r.count g).huanleftflag = 0 := (count_ringFlags r).1.trans h
  unfold RingState.detect
  split <;> exact hcount

theorem rightFound_of_step {r : RingState} (h : r.huanrightflag = 0)
    (hset : (r.step g).huanrightflag ≠ 0) : g.rightFound = true := by
  by_contra hnone
  refine hset (ClearsFlags.step (I := fun r => r.huanrightflag = 0)
    ⟨fun _ _ _ _ h => h, fun _ _ _ _ _ => rfl, fun _ _ _ _ _ _ h => h⟩ ?_)
  have hcount : (r.count g).huanrightflag = 0 := (count_ringFlags r).2.trans h
  unfold RingState.detect
  split <;> exact hcount

end Steps

section Frames

variable {s : Lines} (fr : Frame)

/-- The stage counters rest between frames and are never both set inside one,
and a frame that raises a ring flag shows the whole evidence for it. -/
theorem ring_entered_on_evidence (hs : Reachable s) :
    (s.js1 = 0 ∧ s.js2 = 0) ∧
      (∀ b, ∀ p ∈ stagePairs fr (findline1 fr s).val b, p.1 = 0 ∨ p.2 = 0) ∧
      (s.f2.huanleftflag = 0 → (nextFrame fr s).f2.huanleftflag ≠ 0 →
        LeftRingEvidence (findline1 fr s).val.f1 (guaiOf (findline1 fr s).val)
          (findline1 fr s).val.f2.toppoint) ∧
      (s.f2.huanrightflag = 0 → (nextFrame fr s).f2.huanrightflag ≠ 0 →
        RightRingEvidence (findline1 fr s).val.f1 (guaiOf (findline1 fr s).val)
          (findline1 fr s).val.f2.toppoint) := by
  obtain ⟨⟨hjs1, hjs2⟩, hflags⟩ := reachable_flags hs
  obtain ⟨-, h₁, h₂⟩ := findline1_ring fr (s := s)
  have hstep := (nextFrame_ring fr hjs1 hjs2).1
  have hknown : FlagsKnown (findline1 fr s).val.f1 :=
    findEdges_flags fr.image s.f1 s.columnStart hflags
  refine ⟨⟨hjs1, hjs2⟩, stagePairs_one fr (h₁.trans hjs1) (h₂.trans hjs2), ?_, ?_⟩
  · intro hoff hset
    have hset' : (nextFrame fr s).ring.huanleftflag ≠ 0 := hset
    rw [hstep] at hset'
    have hfound := leftFound_of_step hoff hset'
    exact (leftEvidence_of_stage fr (h₁.trans hjs1) (h₂.trans hjs2)
      (of_decide_eq_true hfound)).onEdges fr hknown
  · intro hoff hset
    have hset' : (nextFrame fr s).ring.huanrightflag ≠ 0 := hset
    rw [hstep] at hset'
    have hfound := rightFound_of_step hoff hset'
    exact (rightEvidence_of_stage fr (h₁.trans hjs1) (h₂.trans hjs2)
      (of_decide_eq_true hfound)).onEdges fr hknown

theorem leftRing_flag : (nextFrame (bandFrame leftRingRoad) Lines.init).f2.huanleftflag = 1 := by
  rw [nextFrame_band]
  decide +kernel

/-- The first frame of a left ring. -/
theorem leftRing_entered_on_evidence :
    LeftRingEvidence (findline1 (bandFrame leftRingRoad) Lines.init).val.f1
      (guaiOf (findline1 (bandFrame leftRingRoad) Lines.init).val)
      (findline1 (bandFrame leftRingRoad) Lines.init).val.f2.toppoint :=
  (ring_entered_on_evidence (s := Lines.init) (bandFrame leftRingRoad) ⟨[], rfl⟩).2.2.1 rfl
    (leftRing_flag.trans_ne (by decide))

end Frames

end SmartCar
