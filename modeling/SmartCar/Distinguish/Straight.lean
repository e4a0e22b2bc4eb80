import SmartCar.Distinguish.Functions
import SmartCar.FindLines.CleanRoad

/-!
# When `shortstraight_flag` follows the frame

`short_straight_judge` raises the flag on a straight frame and never lowers it.
On a frame that is not straight the classification therefore follows the frame
exactly as long as no earlier frame was judged straight.
-/

namespace SmartCar

open Imperative Logged Numeric

/-! ## One frame -/

section Frame

variable {v : Speeds} {s : Lines} {d : Drive}

theorem solveMidlineSlope_le (f : Findline1) :
    solveMidlineSlope f ≤ 11 ↔ midlineVariance f < 144 := by
  have hlt : isqrt (midlineVariance f) < 12 ↔ midlineVariance f < 144 := by
    rw [isqrt_lt (by decide)]
    norm_num
  rw [← hlt, solveMidlineSlope]
  omega

/-- The judgement raises the flag, or leaves it as it was. -/
theorem shortStraightJudge_flag (f : Findline1) : (shortStraightJudge f d).shortstraightFlag ≠ 0 ↔
    midlineVariance f < 144 ∨ d.shortstraightFlag ≠ 0 := by
  rw [← solveMidlineSlope_le]
  unfold shortStraightJudge
  dsimp only
  split
  next hle => simp; omega
  next =>
    split
    next hle => simp [hle]
    next hgt => simp [hgt]

theorem longStraightJudge_flag : (longStraightJudge s d).shortstraightFlag = d.shortstraightFlag := by
  unfold longStraightJudge
  split <;> rfl

theorem judgeStraight_flag : (judgeStraight s d).shortstraightFlag ≠ 0 ↔
    s.f2.shiziflag1 = 0 ∧ midlineVariance s.f1 < 144 ∨ d.shortstraightFlag ≠ 0 := by
  unfold judgeStraight
  dsimp only
  split
  next hnone => rw [shortStraightJudge_flag, longStraightJudge_flag]; simp [hnone]
  next hcross => simp [hcross]

/-- The two flags of the judgements. -/
def Drive.straightFlags (d : Drive) : Int × Int := (d.shortstraightFlag, d.longStraightFlag)

/-- The choice of a speed leaves the flags and the steering error alone. -/
theorem setSpeed_keeps (f2 : Findline2) :
    (setSpeed v f2 d).val.straightFlags = d.straightFlags ∧
      (setSpeed v f2 d).val.steerErrorAve = d.steerErrorAve := by
  have hcurve : ∀ d : Drive, (setCurveSpeed v d).val.straightFlags = d.straightFlags ∧
      (setCurveSpeed v d).val.steerErrorAve = d.steerErrorAve := by
    intro d
    refine Returns.bind_any (S := fun t : Drive => t.straightFlags = d.straightFlags ∧
      t.steerErrorAve = d.steerErrorAve) fun past => ?_
    exact Returns.ite (fun _ => ⟨rfl, rfl⟩) fun _ => ⟨rfl, rfl⟩
  refine Returns.ite (Q := fun t : Drive => t.straightFlags = d.straightFlags ∧
    t.steerErrorAve = d.steerErrorAve) (fun _ => ⟨rfl, rfl⟩) fun _ => ?_
  refine Returns.ite (fun _ => ⟨rfl, rfl⟩) fun _ => ?_
  refine Returns.ite (fun _ => ⟨rfl, rfl⟩) fun _ => ?_
  refine Returns.ite (fun _ => ⟨rfl, rfl⟩) fun _ => ?_
  exact Returns.ite (fun _ => ⟨rfl, rfl⟩) fun _ => hcurve _

theorem velocitySet_flags : (velocitySet v s d).val.straightFlags =
    (judgeStraight s d).straightFlags :=
  (setSpeed_keeps s.f2).1

/-- The speed is one that a curve calls for. -/
def CurveSpeed (v : Speeds) (d : Drive) : Prop :=
  d.speedSet = toInt16 (v.sWan1 - 30) ∨ d.speedSet = curveSpeed v d.steerErrorAve

/-- Off the loop and the crossing, and with neither flag of a straight, the road is
a curve. -/
theorem setSpeed_curve {f2 : Findline2} (hloop : ¬ f2.onLoop) (hcross : f2.shiziflag1 ≠ 1)
    (hlong : d.longStraightFlag ≠ 1) (hshort : d.shortstraightFlag = 0) :
    (setSpeed v f2 d).val.roadType 0 = .curve ∧ CurveSpeed v (setSpeed v f2 d).val := by
  simp only [setSpeed, if_neg hloop, if_neg hcross, if_neg hlong, hshort, ne_eq, not_true_eq_false,
    if_false]
  refine Returns.bind (Q := fun t : Drive => t.roadType 0 = .curve)
    (S := fun t : Drive => t.roadType 0 = .curve ∧ CurveSpeed v t) (by simp [Drive.record, Returns])
    fun d hd => ?_
  refine Returns.bind_any fun past => ?_
  exact Returns.ite (fun _ => ⟨hd, Or.inl rfl⟩) fun _ => ⟨hd, Or.inr rfl⟩

theorem velocitySet_roadType (k : Int) : (velocitySet v s d).val.roadType k =
    if 1 ≤ k ∧ k ≤ 200 then (setSpeed v s.f2 (judgeStraight s d)).val.roadType (k - 1)
    else (setSpeed v s.f2 (judgeStraight s d)).val.roadType k := by
  rw [← shift_cell Cell.roadType 200 _ (fun _ u => u) () (by decide)]
  simp only [velocitySet, val_bind, val_pure]

theorem velocitySet_curve (hloop : ¬ s.f2.onLoop) (hcross : s.f2.shiziflag1 = 0)
    (hlong : (judgeStraight s d).longStraightFlag = 0)
    (hshort : (judgeStraight s d).shortstraightFlag = 0) :
    (velocitySet v s d).val.roadType 0 = .curve ∧ (velocitySet v s d).val.roadType 1 = .curve ∧
      CurveSpeed v (velocitySet v s d).val := by
  obtain ⟨hroad, hspeed⟩ := setSpeed_curve (v := v) (d := judgeStraight s d) hloop (by omega)
    (by omega) hshort
  refine ⟨?_, ?_, hspeed⟩
  · rw [velocitySet_roadType]
    simpa using hroad
  · rw [velocitySet_roadType]
    simpa using hroad

end Frame

/-! ## Runs -/

section Runs

variable {fr : DriveFrame} {c : Car} {frames : List DriveFrame}

/-- `classified` before the judgements of the frame. -/
def steered (fr : DriveFrame) (c : Car) : Drive := (computeError (nextLines fr c) c.drive).val

theorem classified_eq : classified fr c =
    (velocitySet fr.speeds (nextLines fr c) (steered fr c)).val := rfl

/-- The frame is judged, and found straight. -/
def JudgedStraight (s : Lines) : Prop := s.f2.shiziflag1 = 0 ∧ midlineVariance s.f1 < 144

theorem classified_flag : (classified fr c).shortstraightFlag ≠ 0 ↔
    JudgedStraight (nextLines fr c) ∨ c.drive.shortstraightFlag ≠ 0 := by
  have hflag : (classified fr c).shortstraightFlag =
      (judgeStraight (nextLines fr c) (steered fr c)).shortstraightFlag :=
    congrArg Prod.fst velocitySet_flags
  rw [hflag, judgeStraight_flag]
  exact Iff.rfl

theorem nextCar_flag : (nextCar fr c).drive.shortstraightFlag = (classified fr c).shortstraightFlag := by
  unfold nextCar
  dsimp only
  split <;> rfl

/-- Some frame of the run was judged straight. -/
def StraightSeen (frames : List DriveFrame) : Prop :=
  ∃ seen, seen <+: frames ∧ seen ≠ [] ∧ JudgedStraight (afterDrive seen).lines

theorem straightSeen_concat : StraightSeen (frames ++ [fr]) ↔
    JudgedStraight (afterDrive (frames ++ [fr])).lines ∨ StraightSeen frames := by
  constructor
  · rintro ⟨seen, hseen, hne, hstraight⟩
    rcases List.prefix_concat_iff.mp hseen with rfl | hbefore
    · exact Or.inl hstraight
    · exact Or.inr ⟨seen, hbefore, hne, hstraight⟩
  · rintro (hstraight | ⟨seen, hbefore, hne, hstraight⟩)
    · exact ⟨_, List.prefix_rfl, by simp, hstraight⟩
    · exact ⟨seen, hbefore.trans (List.prefix_append _ _), hne, hstraight⟩

theorem afterDrive_concat : afterDrive (frames ++ [fr]) = nextCar fr (afterDrive frames) :=
  run_concat frames fr

/-- After a run the flag tells whether any frame of the run was judged straight. -/
theorem afterDrive_flag : (afterDrive frames).drive.shortstraightFlag ≠ 0 ↔ StraightSeen frames := by
  induction frames using List.reverseRecOn with
  | nil =>
      refine ⟨fun h => absurd rfl h, ?_⟩
      rintro ⟨seen, hseen, hne, -⟩
      exact absurd (List.prefix_nil.mp hseen) hne
  | append_singleton frames fr ih =>
      rw [straightSeen_concat, ← ih, afterDrive_concat, nextCar_flag]
      exact classified_flag

/-- After `velocity_set` the flag says whether this frame is straight, and a frame
that is not, off the loop and no long straight, is recorded as a curve and driven
as one. -/
structure FollowsFrame (v : Speeds) (s : Lines) (d : Drive) : Prop where
  flag : d.shortstraightFlag ≠ 0 ↔ midlineVariance s.f1 < 144
  curve : ¬ s.f2.onLoop → d.longStraightFlag = 0 → 144 ≤ midlineVariance s.f1 →
    d.roadType 0 = .curve ∧ d.roadType 1 = .curve ∧ CurveSpeed v d

/-- On a frame without a confirmed crossing the classification follows the frame
exactly if the frame is straight or no earlier frame was judged straight. The cell
behind `road_type` is storage of its own: the write to `road_type[200]` does not reach
`shortstraight_flag`. -/
theorem classified_followsFrame_iff (frames : List DriveFrame) (fr : DriveFrame)
    (hcross : (nextLines fr (afterDrive frames)).f2.shiziflag1 = 0) :
    FollowsFrame fr.speeds (nextLines fr (afterDrive frames)) (classified fr (afterDrive frames)) ↔
      midlineVariance (nextLines fr (afterDrive frames)).f1 < 144 ∨ ¬ StraightSeen frames := by
  have hflag := @classified_flag fr (afterDrive frames)
  rw [afterDrive_flag, JudgedStraight] at hflag
  constructor
  · intro hfollows
    by_contra! hstale
    exact hstale.1.not_gt (hfollows.flag.mp (hflag.mpr (Or.inr hstale.2)))
  · intro hcond
    have hiff : (classified fr (afterDrive frames)).shortstraightFlag ≠ 0 ↔
        midlineVariance (nextLines fr (afterDrive frames)).f1 < 144 := by
      rw [hflag]
      tauto
    refine ⟨hiff, fun hloop hlong hcurved => ?_⟩
    have hflags := velocitySet_flags (v := fr.speeds) (s := nextLines fr (afterDrive frames))
      (d := steered fr (afterDrive frames))
    rw [← classified_eq] at hflags
    refine velocitySet_curve hloop hcross ((congrArg Prod.snd hflags).symm.trans hlong) ?_
    refine (congrArg Prod.fst hflags).symm.trans ?_
    by_contra hset
    exact hcurved.not_gt (hiff.mp hset)

/-! ### A straight and a bend -/

/-- The main loop sees a road drawn in bands. -/
def roadFrame (road : List (Int × Int × Int)) : DriveFrame := ⟨bandImage road, 0, Speeds.init⟩

theorem nextLines_road (road : List (Int × Int × Int)) (c : Car) :
    nextLines (roadFrame road) c = (findline2 ⟨bandImage road, 0, c.drive.shortstraightFlag⟩
      (bandFindline1 road c.lines)).val := by
  simp only [nextLines, nextFrame, processFrame, roadFrame, val_bind, findline1_bandImage]

def whiteRoad : List (Int × Int × Int) := [(0, 0, 159)]

/-- A road that moves to the right by steps. -/
def steppedRoad : List (Int × Int × Int) := [(90, 20, 100), (66, 40, 140), (0, 70, 150)]

theorem whiteRoad_straight : JudgedStraight (afterDrive [roadFrame whiteRoad]).lines := by
  change JudgedStraight (nextLines (roadFrame whiteRoad) Car.init)
  rw [nextLines_road]
  unfold JudgedStraight
  decide +kernel

theorem steppedRoad_curved :
    (nextLines (roadFrame steppedRoad) (afterDrive [roadFrame whiteRoad])).f2.shiziflag1 = 0 ∧
      ¬ midlineVariance
        (nextLines (roadFrame steppedRoad) (afterDrive [roadFrame whiteRoad])).f1 < 144 := by
  have hlines : (afterDrive [roadFrame whiteRoad]).lines =
      nextLines (roadFrame whiteRoad) Car.init := rfl
  rw [nextLines_road, hlines, nextLines_road]
  decide +kernel

/-- The stepped road after the straight one. -/
theorem steppedRoad_followsFrame_iff :
    FollowsFrame (roadFrame steppedRoad).speeds
        (nextLines (roadFrame steppedRoad) (afterDrive [roadFrame whiteRoad]))
        (classified (roadFrame steppedRoad) (afterDrive [roadFrame whiteRoad])) ↔
      midlineVariance
          (nextLines (roadFrame steppedRoad) (afterDrive [roadFrame whiteRoad])).f1 < 144 ∨
        ¬ StraightSeen [roadFrame whiteRoad] :=
  classified_followsFrame_iff [roadFrame whiteRoad] (roadFrame steppedRoad) steppedRoad_curved.1

/-- It is classified by the flag that the straight road left. -/
theorem steppedRoad_stale :
    ¬ ∀ frames fr, (nextLines fr (afterDrive frames)).f2.shiziflag1 = 0 →
      FollowsFrame fr.speeds (nextLines fr (afterDrive frames))
        (classified fr (afterDrive frames)) := by
  intro hclaim
  have hfollows := hclaim [roadFrame whiteRoad] (roadFrame steppedRoad) steppedRoad_curved.1
  have hseen : StraightSeen [roadFrame whiteRoad] :=
    ⟨_, List.prefix_rfl, by simp, whiteRoad_straight⟩
  exact steppedRoad_curved.2 (hfollows.flag.mp
    (classified_flag.mpr (Or.inr (afterDrive_flag.mpr hseen))))

end Runs

end SmartCar
