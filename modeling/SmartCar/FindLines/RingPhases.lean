import SmartCar.FindLines.RingEvidence

/-!
# What the ring machine is for

A car that drives one ring at a time passes through a few phases. The flags of
the code encode them, and every frame is a step of the phases, as long as no
detection completes while another ring is still being driven. The code does not
check that: two frames are enough to enter a left and a right ring at once.
-/

namespace SmartCar

open Imperative Logged

/-- Where the car is: on the road, in a left or right ring, past its far corner,
or on the way out. -/
inductive RingPhase where
  | road
  | left
  | right
  | leftFar
  | rightFar
  | leftOut
  | rightOut
deriving DecidableEq

namespace RingPhase

variable (g : RingSigns)

def detect : RingPhase → RingPhase
  | road => if g.leftFound then left else if g.rightFound then right else road
  | p => p

def drive : RingPhase → RingPhase
  | left => if g.leftCorner then leftFar else left
  | right => if g.rightCorner then rightFar else right
  | p => p

def await : RingPhase → RingPhase
  | leftFar => if g.leftExit then leftOut else leftFar
  | rightFar => if g.rightExit then rightOut else rightFar
  | p => p

def leave : RingPhase → RingPhase
  | leftOut => if g.straight then road else leftOut
  | rightOut => if g.straight then road else rightOut
  | p => p

def step (p : RingPhase) : RingPhase := leave g (await g (drive g (detect g p)))

/-- The flags that stand for a phase. -/
def code (p : RingPhase) : RingState where
  huanleftflag := if p = left then 1 else 0
  huanrightflag := if p = right then 1 else 0
  huan := if p = road ∨ p = left ∨ p = right then 0 else 1
  shiziflag0 := 0
  shiziflag1 := 0
  js3 := if p = leftFar then 1 else 0
  js4 := if p = rightFar then 1 else 0
  js7 := if p = leftOut then 1 else 0
  js8 := if p = rightOut then 1 else 0

end RingPhase

/-- The flags stand for the phase `p`, whatever the crossing counter. -/
def Encodes (p : RingPhase) (r : RingState) : Prop := r.clearShizi = p.code

/-- A detection does not complete while another ring is being driven or left. -/
structure OneRing (g : RingSigns) (r : RingState) : Prop where
  left : g.leftFound = true →
    r.huanrightflag = 0 ∧ r.js3 = 0 ∧ r.js4 = 0 ∧ r.js7 = 0 ∧ r.js8 = 0
  right : g.rightFound = true →
    r.huanleftflag = 0 ∧ r.js3 = 0 ∧ r.js4 = 0 ∧ r.js7 = 0 ∧ r.js8 = 0

instance (g : RingSigns) (r : RingState) : Decidable (OneRing g r) :=
  decidable_of_iff
    ((g.leftFound = true →
        r.huanrightflag = 0 ∧ r.js3 = 0 ∧ r.js4 = 0 ∧ r.js7 = 0 ∧ r.js8 = 0) ∧
      (g.rightFound = true →
        r.huanleftflag = 0 ∧ r.js3 = 0 ∧ r.js4 = 0 ∧ r.js7 = 0 ∧ r.js8 = 0))
    ⟨fun h => ⟨h.1, h.2⟩, fun h => ⟨h.left, h.right⟩⟩

section Steps

variable {g : RingSigns} {p : RingPhase} {r : RingState}

theorem Encodes.fields (h : Encodes p r) : r.huanleftflag = p.code.huanleftflag ∧
    r.huanrightflag = p.code.huanrightflag ∧ r.huan = p.code.huan ∧ r.js3 = p.code.js3 ∧
    r.js4 = p.code.js4 ∧ r.js7 = p.code.js7 ∧ r.js8 = p.code.js8 := by
  rw [← h]
  exact ⟨rfl, rfl, rfl, rfl, rfl, rfl, rfl⟩

theorem encodes_count (h : Encodes p r) : Encodes p (r.count g) := by
  have hclear : (r.count g).clearShizi = r.clearShizi := by
    unfold RingState.count
    split
    next => split <;> dsimp only <;> split <;> rfl
    next => rfl
  exact hclear.trans h

theorem encodes_detect (hring : OneRing g r) (hone : ¬ (g.leftFound = true ∧ g.rightFound = true))
    (h : Encodes p r) : Encodes (p.detect g) (r.detect g) := by
  obtain ⟨hl, hr, hh, h₃, h₄, h₇, h₈⟩ := h.fields
  obtain ⟨hleft, hright⟩ := hring
  cases hlf : g.leftFound <;> cases hrf : g.rightFound <;> cases p <;>
    simp_all [Encodes, RingState.detect, RingPhase.detect, RingState.clearShizi, RingPhase.code]

theorem encodes_drive (h : Encodes p r) :
    Encodes (p.drive g) ((r.driveLeft g).driveRight g) := by
  obtain ⟨hl, hr, hh, h₃, h₄, h₇, h₈⟩ := h.fields
  cases p with
  | left =>
      cases hcorner : g.leftCorner <;>
        simp_all [Encodes, RingState.driveLeft, RingState.driveRight, RingPhase.drive,
          RingState.clearShizi, RingPhase.code]
  | right =>
      cases hcorner : g.rightCorner <;>
        simp_all [Encodes, RingState.driveLeft, RingState.driveRight, RingPhase.drive,
          RingState.clearShizi, RingPhase.code]
  | _ => simp_all [Encodes, RingState.driveLeft, RingState.driveRight, RingPhase.drive,
          RingPhase.code]

theorem encodes_await (h : Encodes p r) : Encodes (p.await g) (r.await g) := by
  obtain ⟨hl, hr, hh, h₃, h₄, h₇, h₈⟩ := h.fields
  cases p with
  | leftFar =>
      cases hexit : g.leftExit <;>
        simp_all [Encodes, RingState.await, RingState.awaitLeft, RingState.awaitRight,
          RingPhase.await, RingState.clearShizi, RingPhase.code]
  | rightFar =>
      cases hexit : g.rightExit <;>
        simp_all [Encodes, RingState.await, RingState.awaitLeft, RingState.awaitRight,
          RingPhase.await, RingState.clearShizi, RingPhase.code]
  | _ => simp_all [Encodes, RingState.await, RingState.awaitLeft, RingState.awaitRight,
          RingPhase.await, RingState.clearShizi, RingPhase.code]

theorem encodes_leave (h : Encodes p r) : Encodes (p.leave g) (r.leave g) := by
  obtain ⟨hl, hr, hh, h₃, h₄, h₇, h₈⟩ := h.fields
  cases p with
  | leftOut =>
      cases hstraight : g.straight <;>
        simp_all [Encodes, RingState.leave, RingPhase.leave, RingState.clearShizi, RingPhase.code]
  | rightOut =>
      cases hstraight : g.straight <;>
        simp_all [Encodes, RingState.leave, RingPhase.leave, RingState.clearShizi, RingPhase.code]
  | _ => simp_all [Encodes, RingState.leave, RingPhase.leave, RingPhase.code]

/-- Up to the exit block, a frame that keeps to one ring moves along the phases. -/
theorem encodes_awaited (hring : OneRing g r)
    (hone : ¬ (g.leftFound = true ∧ g.rightFound = true)) (h : Encodes p r) :
    Encodes (((p.detect g).drive g).await g)
      (((((r.count g).detect g).driveLeft g).driveRight g).await g) := by
  have hcount : OneRing g (r.count g) := by
    have hrest := (encodes_count (g := g) h).fields
    have hfields := h.fields
    simp only [← hfields] at hrest
    obtain ⟨hl, hr, -, h₃, h₄, h₇, h₈⟩ := hrest
    exact ⟨by rw [hr, h₃, h₄, h₇, h₈]; exact hring.left,
      by rw [hl, h₃, h₄, h₇, h₈]; exact hring.right⟩
  exact encodes_await (encodes_drive (encodes_detect hcount hone (encodes_count h)))

end Steps

/-! ## Runs -/

section Runs

variable {fr : Frame} {s : Lines}

/-- The frame completes no detection while another ring is being driven. -/
def SingleRing (fr : Frame) (s : Lines) : Prop :=
  OneRing (frameSigns fr (findline1 fr s).val) s.ring

/-- In this frame the exit block runs and clears `huan`, `js7` and `js8`. -/
def RingExit (fr : Frame) (s : Lines) : Prop :=
  let before := (huanBlock (ringsOf fr (findline1 fr s).val).val).val
  (before.js7 ≠ 0 ∨ before.js8 ≠ 0) ∧ (frameSigns fr (findline1 fr s).val).straight = true

/-- At most one ring variable is nonzero, and `huan` tells whether the far
corner has been passed. -/
def RingWellFormed (s : Lines) : Prop :=
  [s.f2.huanleftflag, s.f2.huanrightflag, s.js3, s.js4, s.js7, s.js8].countP (· ≠ 0) ≤ 1 ∧
    (s.f2.huan = 1 ↔ s.js3 ≠ 0 ∨ s.js4 ≠ 0 ∨ s.js7 ≠ 0 ∨ s.js8 ≠ 0)

/-- No ring variable is set. -/
def OffRing (s : Lines) : Prop :=
  s.f2.huanleftflag = 0 ∧ s.f2.huanrightflag = 0 ∧ s.js3 = 0 ∧ s.js4 = 0 ∧ s.js7 = 0 ∧
    s.js8 = 0 ∧ s.f2.huan = 0

theorem ringWellFormed_of_encodes {p : RingPhase} (h : Encodes p s.ring) : RingWellFormed s := by
  obtain ⟨hl, hr, hh, h₃, h₄, h₇, h₈⟩ := h.fields
  simp only [Lines.ring, Findline2.marks] at hl hr hh h₃ h₄ h₇ h₈
  simp only [RingWellFormed, hl, hr, hh, h₃, h₄, h₇, h₈]
  cases p <;> decide

/-- A frame is a step of the phases; the exit block makes the last part of it. -/
theorem nextFrame_encodes {p : RingPhase} (hjs1 : s.js1 = 0) (hjs2 : s.js2 = 0)
    (hring : SingleRing fr s) (h : Encodes p s.ring) :
    ∃ q, Encodes q (huanBlock (ringsOf fr (findline1 fr s).val).val).val.ring ∧
      q.leave (frameSigns fr (findline1 fr s).val) = p.step (frameSigns fr (findline1 fr s).val) ∧
      Encodes (p.step (frameSigns fr (findline1 fr s).val)) (nextFrame fr s).ring := by
  obtain ⟨hsame, h₁, h₂⟩ := findline1_ring fr (s := s)
  -- the stages allow one detection a frame
  have hone := (stages_spec fr (h₁.trans hjs1) (h₂.trans hjs2)).stage.one
  have hawait := encodes_awaited hring
    (by simp only [frameSigns, decide_eq_true_eq]; omega) h
  refine ⟨_, ?_, rfl, ?_⟩
  · rw [(awaited_spec fr (h₁.trans hjs1) (h₂.trans hjs2)).1, hsame]
    exact hawait
  · rw [(nextFrame_ring fr hjs1 hjs2).1]
    exact encodes_leave hawait

/-- The flags stand for a phase after every run that keeps to one ring. -/
theorem afterFrames_encodes {frames : List Frame}
    (hmeets : Meets SingleRing nextFrame Lines.init frames) :
    ∃ p, Encodes p (afterFrames frames).ring := by
  have hinv := run_invariant_of_meets
    (fun s : Lines => (s.js1 = 0 ∧ s.js2 = 0) ∧ ∃ p, Encodes p s.ring) ?_ hmeets
    ⟨⟨rfl, rfl⟩, .road, rfl⟩
  · exact hinv.2
  · rintro fr s ⟨⟨h₁, h₂⟩, p, hp⟩ hring
    obtain ⟨q, -, -, hnext⟩ := nextFrame_encodes h₁ h₂ hring hp
    exact ⟨(nextFrame_ring fr h₁ h₂).2, _, hnext⟩

/-- In every run that never completes a detection while another ring is being
driven, the ring variables are well formed at every frame boundary, and the exit
that clears `huan` leaves none of them set. -/
theorem ring_wellFormed {frames : List Frame}
    (hmeets : Meets SingleRing nextFrame Lines.init frames) :
    RingWellFormed (afterFrames frames) ∧ ∀ fr, SingleRing fr (afterFrames frames) →
      RingExit fr (afterFrames frames) → OffRing (nextFrame fr (afterFrames frames)) := by
  obtain ⟨p, hp⟩ := afterFrames_encodes hmeets
  refine ⟨ringWellFormed_of_encodes hp, ?_⟩
  rintro fr hring ⟨hexit, hstraight⟩
  obtain ⟨h₁, h₂⟩ := reachable_stages ⟨frames, rfl⟩
  obtain ⟨q, hq, hleave, hnext⟩ := nextFrame_encodes h₁ h₂ hring hp
  -- the exit block only runs in the two last phases
  have hroad : q.leave (frameSigns fr (findline1 fr (afterFrames frames)).val) = .road := by
    obtain ⟨-, -, -, -, -, h₇, h₈⟩ := hq.fields
    simp only [Lines.ring] at h₇ h₈
    rw [h₇, h₈] at hexit
    cases q <;> simp_all [RingPhase.code, RingPhase.leave]
  rw [← hleave, hroad] at hnext
  obtain ⟨hl, hr, hh, h₃, h₄, h₇, h₈⟩ := hnext.fields
  exact ⟨hl, hr, h₃, h₄, h₇, h₈, hh⟩

/-- A left ring with the right corner at which it is left. -/
def farCornerRoad : List (Int × Int × Int) := [(71, 30, 159), (68, 30, 139), (31, 30, 134)]

/-- The road behind the ring, judged straight, on which the right edge steps outwards. -/
def ringExitFrame : Frame := ⟨bandImage [(60, 30, 110), (31, 30, 120)], 0, 1⟩

/-- A left ring that is entered, driven and left. -/
theorem ring_wellFormed_leftRing :
    RingWellFormed (afterFrames ([leftRingRoad, farCornerRoad].map bandFrame)) ∧
      OffRing (nextFrame ringExitFrame
        (afterFrames ([leftRingRoad, farCornerRoad].map bandFrame))) := by
  have hentered : SingleRing (bandFrame leftRingRoad) Lines.init :=
    ⟨fun _ => ⟨rfl, rfl, rfl, rfl, rfl⟩, fun _ => ⟨rfl, rfl, rfl, rfl, rfl⟩⟩
  have hdriven : SingleRing (bandFrame farCornerRoad)
      (nextFrame (bandFrame leftRingRoad) Lines.init) := by
    rw [SingleRing, nextFrame_band, findline1_band]
    decide +kernel
  have hmeets : Meets SingleRing nextFrame Lines.init
      ([leftRingRoad, farCornerRoad].map bandFrame) := ⟨hentered, hdriven, trivial⟩
  obtain ⟨hformed, hexit⟩ := ring_wellFormed hmeets
  have hleft : SingleRing ringExitFrame (afterFrames ([leftRingRoad, farCornerRoad].map bandFrame)) ∧
      RingExit ringExitFrame (afterFrames ([leftRingRoad, farCornerRoad].map bandFrame)) := by
    rw [SingleRing, RingExit, afterFrames_band, ringExitFrame, findline1_bandImage]
    decide +kernel
  exact ⟨hformed, hexit ringExitFrame hleft.1 hleft.2⟩

theorem not_ringWellFormed_of_both (hleft : s.f2.huanleftflag ≠ 0)
    (hright : s.f2.huanrightflag ≠ 0) : ¬ RingWellFormed s := by
  rintro ⟨hcount, -⟩
  simp only [List.countP_cons, List.countP_nil, decide_eq_true_eq] at hcount
  rw [if_pos hleft, if_pos hright] at hcount
  omega

/-- After these two frames the car is in a left and in a right ring. -/
theorem both_rings_entered :
    ¬ RingWellFormed (afterFrames ([leftRingRoad, rightRingRoad].map bandFrame)) := by
  rw [afterFrames_band]
  have hflags : (run bandStep Lines.init [leftRingRoad, rightRingRoad]).f2.huanleftflag = 1 ∧
      (run bandStep Lines.init [leftRingRoad, rightRingRoad]).f2.huanrightflag = 1 := by
    decide +kernel
  exact not_ringWellFormed_of_both (by rw [hflags.1]; decide) (by rw [hflags.2]; decide)

end Runs

end SmartCar
