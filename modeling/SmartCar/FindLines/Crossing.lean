import SmartCar.FindLines.RingPhases

/-!
# The crossing counter

`shiziflag` counts the frames that show a corner since the last frame that reset
it; the fourth one confirms a crossing. Only the ring machine ever resets the
counter, so without a ring a confirmed crossing is never left again.
-/

namespace SmartCar

open Imperative Logged

/-! ## Steps -/

namespace RingState

/-- The crossing counter and the confirmed crossing. -/
def shizi (r : RingState) : Int × Int := (r.shiziflag0, r.shiziflag1)

/-- The frame restarts the crossing counter: a ring is found, or the car waits
for the exit of one, or drives out of it. -/
def Resets (g : RingSigns) (r : RingState) : Prop :=
  let driven := (((r.count g).detect g).driveLeft g).driveRight g
  (g.leftFound = true ∨ g.rightFound = true) ∨ driven.huan = 1 ∨
    (driven.await g).js7 ≠ 0 ∨ (driven.await g).js8 ≠ 0

instance (g : RingSigns) (r : RingState) : Decidable (r.Resets g) :=
  inferInstanceAs (Decidable (_ ∨ _))

variable (g : RingSigns) (r : RingState)

theorem shizi_detect : (r.detect g).shizi =
    if g.leftFound = true ∨ g.rightFound = true then (0, 0) else r.shizi := by
  unfold detect
  split <;> rfl

theorem shizi_drive : ((r.driveLeft g).driveRight g).shizi = r.shizi := by
  have hleft : (r.driveLeft g).shizi = r.shizi := by
    unfold driveLeft
    split <;> rfl
  rw [← hleft]
  generalize r.driveLeft g = q
  unfold driveRight
  split <;> rfl

theorem shizi_await : (r.await g).shizi = if r.huan = 1 then (0, 0) else r.shizi := by
  have hleft : (r.clearShizi.awaitLeft g).shizi = (0, 0) := by
    unfold awaitLeft
    split <;> rfl
  have hright : ((r.clearShizi.awaitLeft g).awaitRight g).shizi = (0, 0) := by
    rw [← hleft]
    generalize r.clearShizi.awaitLeft g = q
    unfold awaitRight
    split <;> rfl
  unfold await
  split
  next => exact hright
  next => rfl

theorem shizi_leave : (r.leave g).shizi = if r.js7 ≠ 0 ∨ r.js8 ≠ 0 then (0, 0) else r.shizi := by
  unfold leave
  split
  next => split <;> rfl
  next => rfl

/-- A frame counts, then one of the resets may follow. -/
theorem shizi_step : (r.step g).shizi = if r.Resets g then (0, 0) else (r.count g).shizi := by
  unfold step Resets
  rw [shizi_leave, shizi_await, shizi_drive, shizi_detect]
  grind

theorem shizi_count (hfresh : r.shiziflag0 ≤ 3) : (r.count g).shizi =
    if g.corner = true ∧ r.shiziflag1 = 0 then
      if r.shiziflag0 = 3 then (0, 1) else (r.shiziflag0 + 1, 0)
    else r.shizi := by
  unfold count shizi
  split
  next hcorner =>
    by_cases hone : r.shiziflag1 = 0
    · simp only [hone, hcorner, if_true, and_self]
      grind
    · simp only [hone, if_false, and_false]
      rw [if_neg (by omega)]
  next hcorner => simp [hcorner]

end RingState

/-! ## Counting corners -/

/-- The value of the counter after `c` corners without a reset. -/
def crossing (c : Nat) : Int × Int := if c < 4 then (c, 0) else (0, 1)

theorem shizi_count_crossing (g : RingSigns) {r : RingState} {c : Nat} (h : r.shizi = crossing c) :
    (r.count g).shizi = crossing (c + if g.corner = true then 1 else 0) := by
  unfold crossing at h
  have hfields : r.shiziflag0 = (if c < 4 then (c : Int) else 0) ∧
      r.shiziflag1 = if c < 4 then 0 else 1 := by
    split at h <;> simp_all [RingState.shizi]
  rw [RingState.shizi_count g r (by grind), h, hfields.1, hfields.2]
  unfold crossing
  grind

/-- Each frame as seen by the counter: whether it resets, and whether it shows a
corner. -/
structure CrossingLabel where
  reset : Bool
  corner : Bool

/-- The corners after the last reset. -/
def cornersSinceReset (labels : List CrossingLabel) : Nat :=
  (labels.reverse.takeWhile fun l => !l.reset).countP (·.corner)

theorem cornersSinceReset_concat (labels : List CrossingLabel) (l : CrossingLabel) :
    cornersSinceReset (labels ++ [l]) =
      if l.reset = true then 0 else cornersSinceReset labels + if l.corner = true then 1 else 0 := by
  unfold cornersSinceReset
  rw [List.reverse_append, List.reverse_singleton, List.singleton_append, List.takeWhile_cons]
  cases l.reset <;> simp [List.countP_cons]

section Frames

variable (fr : Frame) {s : Lines}

/-- A corner flag is still up after `shizi_judge`, the arbitration of crossed
corners and `both_row_lose_judge`. -/
def cornerSurvives (fr : Frame) (s : Lines) : Bool :=
  let corners := (cornersOf fr s).val
  corners.f2.cornerSeen && (judgeGuai corners.f1 corners.f2).val.cornerSeen

/-- `find_huan3` promotes a stage to 3. -/
def ringFound (fr : Frame) (s : Lines) : Bool :=
  (stagesOf fr s).val.js1 = 3 || (stagesOf fr s).val.js2 = 3

/-- A ring is found, the test of `huan` finds 1, or the test of `js7` and `js8`
finds one of them set. -/
def resetsCrossing (fr : Frame) (s : Lines) : Bool :=
  let huan := (huanBlock (ringsOf fr s).val).val
  ringFound fr s || (ringsOf fr s).val.f2.huan = 1 || huan.js7 ≠ 0 || huan.js8 ≠ 0

/-- The labels of a run of frames. -/
def crossingLabels : Lines → List Frame → List CrossingLabel
  | _, [] => []
  | s, fr :: frames => ⟨resetsCrossing fr (findline1 fr s).val,
      cornerSurvives fr (findline1 fr s).val⟩ :: crossingLabels (nextFrame fr s) frames

theorem crossingLabels_concat (s : Lines) (frames : List Frame) (fr : Frame) :
    crossingLabels s (frames ++ [fr]) = crossingLabels s frames ++
      [⟨resetsCrossing fr (findline1 fr (run nextFrame s frames)).val,
        cornerSurvives fr (findline1 fr (run nextFrame s frames)).val⟩] := by
  induction frames generalizing s with
  | nil => rfl
  | cons fr' frames ih => simp [crossingLabels, ih]

/-- The corner sign of the machine is the corner that survives the judgement. -/
theorem frameSigns_corner (hjs1 : s.js1 = 0) (hjs2 : s.js2 = 0) :
    (frameSigns fr s).corner = cornerSurvives fr s := by
  obtain ⟨-, h₁, h₂, -⟩ := cornersOf_ring fr (s := s)
  simp only [frameSigns, cornerSurvives]
  generalize (cornersOf fr s).val = t at h₁ h₂ ⊢
  cases hseen : t.f2.cornerSeen with
  | false =>
      have hnone : ¬ (t.f2.leftguaiflag = 1 ∨ t.f2.rightguaiflag = 1) := by
        simpa [Findline2.cornerSeen] using hseen
      simp [cornerBlock, hnone, hseen]
  | true =>
      have hcorner : t.f2.leftguaiflag = 1 ∨ t.f2.rightguaiflag = 1 := by
        simpa [Findline2.cornerSeen] using hseen
      have hrest := (findHuan1_spec (h₁.trans hjs1) (h₂.trans hjs2)).rest
      simp only [cornerBlock, val_onlyIf, if_pos hcorner, val_bind, val_pure,
        dropGuai_cornerSeen, countShizi_cornerSeen, Bool.true_and]
      rw [hrest]

/-- The resets of the machine are those of the code. -/
theorem resets_iff (hjs1 : s.js1 = 0) (hjs2 : s.js2 = 0) :
    s.ring.Resets (frameSigns fr s) ↔ resetsCrossing fr s = true := by
  have hdriven := (rings_spec fr hjs1 hjs2).1
  have hawaited := (awaited_spec fr hjs1 hjs2).1
  rw [← hdriven] at hawaited
  unfold RingState.Resets
  dsimp only
  rw [← hdriven, ← hawaited]
  simp [resetsCrossing, ringFound, frameSigns, Lines.ring, Findline2.marks, or_assoc]

/-- The counter after a run is the number of corners since the last reset. -/
theorem afterFrames_crossing (frames : List Frame) : (afterFrames frames).ring.shizi =
    crossing (cornersSinceReset (crossingLabels Lines.init frames)) := by
  induction frames using List.reverseRecOn with
  | nil => rfl
  | append_singleton frames fr ih =>
      obtain ⟨hjs1, hjs2⟩ := reachable_stages (s := afterFrames frames) ⟨frames, rfl⟩
      obtain ⟨hsame, h₁, h₂⟩ := findline1_ring fr (s := afterFrames frames)
      have hcorner := frameSigns_corner fr (h₁.trans hjs1) (h₂.trans hjs2)
      have hreset := resets_iff fr (h₁.trans hjs1) (h₂.trans hjs2)
      -- a frame without a reset counts its corner
      have hcount := shizi_count_crossing
        (frameSigns fr (findline1 fr (afterFrames frames)).val) ih
      rw [hcorner] at hcount
      rw [hsame] at hreset
      rw [crossingLabels_concat, cornersSinceReset_concat, afterFrames, run_concat]
      change (nextFrame fr (afterFrames frames)).ring.shizi = crossing
        (if resetsCrossing fr (findline1 fr (afterFrames frames)).val = true then 0 else
          cornersSinceReset (crossingLabels Lines.init frames) +
            if cornerSurvives fr (findline1 fr (afterFrames frames)).val = true then 1 else 0)
      rw [(nextFrame_ring fr hjs1 hjs2).1, RingState.shizi_step]
      by_cases hresets :
          (afterFrames frames).ring.Resets (frameSigns fr (findline1 fr (afterFrames frames)).val)
      · rw [if_pos hresets, if_pos (hreset.mp hresets)]
        rfl
      · rw [if_neg hresets, if_neg fun h => hresets (hreset.mpr h)]
        exact hcount

/-- At every frame boundary the counter is in range, a crossing is confirmed
exactly after four corners since the last reset, and before that the counter is
their number. -/
theorem shizi_counts_corners (frames : List Frame) :
    let s := afterFrames frames
    let c := cornersSinceReset (crossingLabels Lines.init frames)
    (0 ≤ s.f2.shiziflag0 ∧ s.f2.shiziflag0 ≤ 3) ∧ (s.f2.shiziflag1 = 0 ∨ s.f2.shiziflag1 = 1) ∧
      (s.f2.shiziflag1 = 1 ↔ 4 ≤ c) ∧ s.f2.shiziflag0 = if c < 4 then (c : Int) else 0 := by
  have hshizi := afterFrames_crossing frames
  intro s c
  have hpair : (s.f2.shiziflag0, s.f2.shiziflag1) = crossing c := hshizi
  unfold crossing at hpair
  split at hpair
  next hlt =>
    obtain ⟨h₀, h₁⟩ := Prod.mk.injEq .. ▸ hpair
    rw [h₀, h₁, if_pos hlt]
    omega
  next hge =>
    obtain ⟨h₀, h₁⟩ := Prod.mk.injEq .. ▸ hpair
    rw [h₀, h₁, if_neg hge]
    omega

end Frames

/-! ## A crossing is latched -/

section Latch

variable {fr : Frame} {s : Lines}

/-- The frame completes no ring detection. -/
def RingFree (fr : Frame) (s : Lines) : Prop := ringFound fr (findline1 fr s).val = false

/-- Between frames without a ring. -/
structure OnRoad (s : Lines) : Prop where
  js1 : s.js1 = 0
  js2 : s.js2 = 0
  road : Encodes .road s.ring

theorem RingFree.signs (hfree : RingFree fr s) :
    (frameSigns fr (findline1 fr s).val).leftFound = false ∧
      (frameSigns fr (findline1 fr s).val).rightFound = false := by
  simpa [RingFree, ringFound, frameSigns] using hfree

/-- Without a detection the car stays on the road. -/
theorem OnRoad.next (h : OnRoad s) (hfree : RingFree fr s) : OnRoad (nextFrame fr s) := by
  obtain ⟨hleft, hright⟩ := hfree.signs
  have hring : SingleRing fr s := ⟨fun hl => by simp [hleft] at hl, fun hr => by simp [hright] at hr⟩
  obtain ⟨q, -, -, hnext⟩ := nextFrame_encodes h.js1 h.js2 hring h.road
  have hroad : RingPhase.road.step (frameSigns fr (findline1 fr s).val) = .road := by
    simp [RingPhase.step, RingPhase.detect, RingPhase.drive, RingPhase.await, RingPhase.leave,
      hleft, hright]
  rw [hroad] at hnext
  obtain ⟨-, h₁, h₂⟩ := nextFrame_ring fr h.js1 h.js2
  exact ⟨h₁, h₂, hnext⟩

/-- On the road no frame resets the crossing. -/
theorem OnRoad.not_resets (h : OnRoad s) (hfree : RingFree fr s) :
    ¬ s.ring.Resets (frameSigns fr (findline1 fr s).val) := by
  obtain ⟨hleft, hright⟩ := hfree.signs
  generalize frameSigns fr (findline1 fr s).val = g at hleft hright
  have hcount := encodes_count (g := g) h.road
  have hdetect : Encodes .road ((s.ring.count g).detect g) := by
    simpa [RingState.detect, hleft, hright] using hcount
  have hdrive : Encodes .road ((((s.ring.count g).detect g).driveLeft g).driveRight g) :=
    encodes_drive hdetect
  have hawait : Encodes .road (((((s.ring.count g).detect g).driveLeft g).driveRight g).await g) :=
    encodes_await hdrive
  obtain ⟨-, -, hhuan, -⟩ := hdrive.fields
  obtain ⟨-, -, -, -, -, h₇, h₈⟩ := hawait.fields
  simp [RingState.Resets, hleft, hright, hhuan, h₇, h₈, RingPhase.code]

theorem count_keeps_crossing (g : RingSigns) {r : RingState} (h : r.shiziflag1 = 1) :
    (r.count g).shiziflag1 = 1 := by
  unfold RingState.count
  split
  next => split <;> dsimp only <;> split <;> first | rfl | exact h
  next => exact h

/-- One frame without a ring keeps a confirmed crossing. -/
theorem OnRoad.keeps_crossing (h : OnRoad s) (hfree : RingFree fr s)
    (hset : s.f2.shiziflag1 = 1) : (nextFrame fr s).f2.shiziflag1 = 1 := by
  have hstep := RingState.shizi_step (frameSigns fr (findline1 fr s).val) s.ring
  rw [if_neg (h.not_resets hfree), ← (nextFrame_ring fr h.js1 h.js2).1] at hstep
  have hsecond := congrArg Prod.snd hstep
  exact hsecond.trans (count_keeps_crossing _ hset)

/-- The car is on the road after every run without a detection. -/
theorem onRoad_of_ringFree {frames : List Frame}
    (hfree : Meets RingFree nextFrame Lines.init frames) : OnRoad (afterFrames frames) :=
  run_invariant_of_meets OnRoad (fun _ _ h hfree => h.next hfree) hfree ⟨rfl, rfl, rfl⟩

/-- A run without a detection keeps a confirmed crossing to its end. -/
theorem OnRoad.latched (h : OnRoad s) (hset : s.f2.shiziflag1 = 1) {more : List Frame}
    (hfree : Meets RingFree nextFrame s more) : (run nextFrame s more).f2.shiziflag1 = 1 :=
  (run_invariant_of_meets (fun s => OnRoad s ∧ s.f2.shiziflag1 = 1)
    (fun _ _ h hfree => ⟨h.1.next hfree, h.1.keeps_crossing hfree h.2⟩) hfree ⟨h, hset⟩).2

/-- Once a crossing is confirmed, no run of frames without a ring ends it. -/
theorem crossing_never_left {frames : List Frame}
    (hfree : Meets RingFree nextFrame Lines.init frames)
    (hset : (afterFrames frames).f2.shiziflag1 = 1) :
    ¬ ∃ more, Meets RingFree nextFrame (afterFrames frames) more ∧
      (run nextFrame (afterFrames frames) more).f2.shiziflag1 = 0 := by
  rintro ⟨more, hmore, hleft⟩
  have hlatched := (onRoad_of_ringFree hfree).latched hset hmore
  omega

/-- A road with a left corner of a crossing. -/
def cornerRoad : List (Int × Int × Int) :=
  [(81, 30, 130), (80, 40, 130), (77, 30, 130), (65, 0, 159)]

/-- Four frames that show the corner. -/
def cornerRun : List Frame := (List.replicate 4 cornerRoad).map bandFrame

/-- They confirm a crossing, and none of them completes a ring detection. -/
theorem cornerRun_confirms : Meets RingFree nextFrame Lines.init cornerRun ∧
    (afterFrames cornerRun).f2.shiziflag1 = 1 := by
  unfold cornerRun
  rw [afterFrames_band, meets_map]
  simp only [RingFree, findline1_band, nextFrame_band]
  decide +kernel

/-- The crossing confirmed by the four corner frames. -/
theorem crossing_never_left_cornerRun :
    ¬ ∃ more, Meets RingFree nextFrame (afterFrames cornerRun) more ∧
      (run nextFrame (afterFrames cornerRun) more).f2.shiziflag1 = 0 :=
  crossing_never_left cornerRun_confirms.1 cornerRun_confirms.2

/-- It is confirmed on a run without a ring, and no further run without a ring
ends it. -/
theorem cornerRun_latched : ¬ ∀ frames, Meets RingFree nextFrame Lines.init frames →
    (afterFrames frames).f2.shiziflag1 = 1 →
    ∃ more, Meets RingFree nextFrame (afterFrames frames) more ∧
      (run nextFrame (afterFrames frames) more).f2.shiziflag1 = 0 := by
  intro hclaim
  obtain ⟨more, hmore, hleft⟩ := hclaim cornerRun cornerRun_confirms.1 cornerRun_confirms.2
  have hlatched := (onRoad_of_ringFree cornerRun_confirms.1).latched cornerRun_confirms.2 hmore
  omega

end Latch

end SmartCar
