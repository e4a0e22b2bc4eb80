import SmartCar.FindLines.Crossing
import SmartCar.FindLines.Midline

/-!
# One turn at a time

`find_curve1` and `find_curve3` flag at most one turn, and all that follows can only
withdraw it. A corner that survives its judgement withdraws both, so the turn
compensation never works on a frame with a corner.
-/

namespace SmartCar

open Imperative Logged

/-! ## A surviving corner -/

/-- A surviving corner withdraws the turns. -/
theorem cornerBlock_noTurn (fr : Frame) (s : Lines) (h : cornerSurvives fr s = true) :
    NoTurn (cornerBlock (cornersOf fr s).val).val.f2 := by
  simp only [cornerSurvives, Findline2.cornerSeen, Bool.and_eq_true, Bool.or_eq_true,
    decide_eq_true_eq] at h
  generalize (cornersOf fr s).val = t at h ⊢
  obtain ⟨hseen, hsurvives⟩ := h
  have hnone : ∀ f2 : Findline2, NoTurn (dropTurns f2) := by
    intro f2
    refine iteInduction (fun _ => ⟨rfl, rfl⟩) fun h => ?_
    obtain ⟨hl, hr⟩ := not_or.mp h
    exact ⟨not_ne_iff.mp hl, not_ne_iff.mp hr⟩
  rw [cornerBlock, val_onlyIf, if_pos hseen]
  refine Returns.bind (Q := fun u : Lines => u.f1 = t.f1 ∧ u.f2 = t.f2)
    (S := fun u : Lines => NoTurn u.f2) (findHuan1_rest t) ?_
  rintro u ⟨hf1, hf2⟩
  rw [hf1, hf2]
  have hjudged : Returns (fun f2 : Findline2 => f2.leftguaiflag = 1 ∨ f2.rightguaiflag = 1)
      (judgeGuai t.f1 t.f2) := hsurvives
  refine hjudged.bind fun f2 hcorner => Returns.pure ?_
  refine dropGuai_keeps noTurn_kept.guaiFree ?_
  rw [countShizi, if_pos hcorner]
  exact hnone _

/-! ## Frames -/

/-- The states of `findline2` from the end of `find_curve3` on: between its blocks,
and after each side of the ring block. -/
def turnStates (fr : Frame) (s : Lines) : List Lines :=
  let judged := (cornerBlock (cornersOf fr s).val).val
  let flagged := ringFlags (ringStages fr.image judged).val
  let exited := (huanExitBlock fr.shortstraightFlag (huanBlock (ringsOf fr s).val).val).val
  [(cornersOf fr s).val, judged, (stagesOf fr s).val, flagged, (leftRing flagged).val,
    (ringCompensate flagged).val, (ringsOf fr s).val, (huanBlock (ringsOf fr s).val).val, exited,
    (turnCompensate exited).val, (findline2 fr s).val]

section Frames

variable {I : Findline2 → Prop} (fr : Frame) {s : Lines}

/-- What holds of the turns after the corner block holds until `findline2` returns. -/
theorem turnStates_kept (hI : TurnKept I) (h : I (cornersOf fr s).val.f2) :
    ∀ t ∈ turnStates fr s, I t.f2 := by
  have hjudged := cornerBlock_turns hI h
  have hstages := stagesOf_turns fr hI hjudged
  have hflagged := ringFlags_turns hI hstages
  have hrings := ringsOf_turns fr hI hstages
  have hhuan := huanBlock_turns hI hrings
  have hexited := huanExitBlock_turns hI fr.shortstraightFlag hhuan
  have hturned := turnCompensate_redrawn.keeps hexited
  simp only [turnStates, List.forall_mem_cons]
  exact ⟨h, hjudged, hstages, hflagged, leftRing_turns hI hflagged,
    ringCompensate_turns hI hflagged, hrings, hhuan, hexited, hturned,
    findToppoint_turns hI fr.image _ hturned, by simp⟩

/-- In every frame of every run at most one turn is flagged from the end of
`find_curve3` on, and after a corner that survives none is left to compensate. -/
theorem turns_exclusive (frames : List Frame) (fr : Frame) :
    (∀ t ∈ turnStates fr (findline1 fr (afterFrames frames)).val, TurnsValid t.f2) ∧
      (cornerSurvives fr (findline1 fr (afterFrames frames)).val = true →
        NoTurn (exited fr (afterFrames frames)).f2) := by
  constructor
  · exact turnStates_kept fr turnsValid_kept (cornersOf_valid fr _)
  · intro hcorner
    have hjudged := cornerBlock_noTurn fr _ hcorner
    have hrings := ringsOf_turns fr noTurn_kept (stagesOf_turns fr noTurn_kept hjudged)
    exact huanExitBlock_turns noTurn_kept _ (huanBlock_turns noTurn_kept hrings)

end Frames

end SmartCar
