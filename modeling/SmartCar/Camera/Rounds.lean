import SmartCar.Camera.Streaming

/-!
# No frame twice

`main` resets the semaphore before it waits, so that it never works on a frame twice. If
interrupts are taken at once, `gray_mean_filter` always begins with a whole frame; it has
the time until the next frame is done.
-/

namespace SmartCar

open Imperative Logged

/-- An interrupt that is pending comes before anything else. -/
def CameraStep.Prompt (x : CameraStep) (c : Camera) : Prop :=
  match x with
  | irq => True
  | frameEnd | main => c.fb1Done = false ∧ c.fb2Done = false

instance CameraStep.decidablePrompt (x : CameraStep) (c : Camera) : Decidable (x.Prompt c) :=
  match x with
  | .irq => .isTrue trivial
  | .frameEnd | .main => inferInstanceAs (Decidable (_ ∧ _))

/-- There is a frame that `main` is going to work on. -/
def Camera.Offered (c : Camera) : Prop :=
  c.fb1Done ≠ c.fb2Done ∨ c.user.main = .woken ∨ c.user.main = .take ∧ 0 < c.user.value

/-- The camera after `main` has worked on the frames `ns`. -/
structure Rounds (log : List FilterRun) (c : Camera) (ns : List Nat) : Prop where
  streaming : ∃ a b, Streaming c a b
  single : c.fb1Done = true → c.fb2Done = false
  newest : c.fb1Done = false → c.fb2Done = false → c.user.finishFlag = true →
    c.content c.user.image = some c.frames
  finish : c.user.main = .woken ∨ 0 < c.user.value → c.user.finishFlag = true
  begun : log.map FilterRun.begun = ns.map some
  increasing : ns.Pairwise (· < ·)
  whole : ∀ e ∈ log, e.ended = e.begun ↔ e.meanwhile = 0
  past : ∀ n ∈ ns, n ≤ c.frames
  offered : c.Offered → ∀ n ∈ ns, n < c.frames
  filter : ∀ image begun frames, c.user.main = .filter image begun frames →
    begun = some frames ∧ (∀ n ∈ ns, n < frames) ∧ frames ≤ c.frames ∧
      (c.content image = some frames ↔ c.frames = frames)

section Steps

variable {log : List FilterRun} {c : Camera} {ns : List Nat} {a b : CsiImage}

/-- There are only two images. -/
theorem eq_or_eq_of_ne (hdiffer : a ≠ b) (image : CsiImage) : image = a ∨ image = b := by
  cases a with
  | csi1 =>
      cases b with
      | csi1 => exact absurd rfl hdiffer
      | csi2 => cases image <;> simp
  | csi2 =>
      cases b with
      | csi1 => cases image <;> simp
      | csi2 => exact absurd rfl hdiffer

/-- A frame that is done leaves nothing of the earlier ones. -/
theorem Streaming.frameEnd_content (hs : Streaming c a b) (hfb1 : c.fb1Done = false)
    (hfb2 : c.fb2Done = false) (image : CsiImage) {n : Nat} (hn : n ≤ c.frames) :
    c.frameEnd.content image ≠ some n := by
  have hstreams := hs.streams
  rw [hs.frameEnd_eq]
  dsimp only
  rw [hs.filling hfb1 hfb2, hstreams.next, hstreams.other]
  -- the frame is in one of the two images, and the next one has begun in the other
  rcases eq_or_eq_of_ne hstreams.differ image with rfl | rfl
  · rw [Function.update_of_ne hstreams.differ, Function.update_self]
    intro hsame
    exact absurd (Option.some.inj hsame) (Nat.ne_of_gt (Nat.lt_succ_of_le hn))
  · rw [Function.update_self]
    intro hsame
    cases hsame

theorem Rounds.frameEnd (hr : Rounds log c ns) (hfb1 : c.fb1Done = false)
    (hfb2 : c.fb2Done = false) : Rounds log c.frameEnd ns := by
  obtain ⟨a, b, hs⟩ := hr.streaming
  have hframes : c.frameEnd.frames = c.frames + 1 := by rw [hs.frameEnd_eq]
  have huser : c.frameEnd.user = c.user := by rw [hs.frameEnd_eq]
  have hdone : c.frameEnd.fb1Done = (c.csi.filling == 0) ∧
      c.frameEnd.fb2Done = (c.csi.filling != 0) := by
    rw [hs.frameEnd_eq]
    dsimp only
    rw [hfb1, hfb2]
    exact ⟨rfl, rfl⟩
  refine ⟨⟨a, b, hs.frameEnd⟩, ?_, ?_, ?_, hr.begun, hr.increasing, hr.whole, ?_, ?_, ?_⟩
  · rw [hdone.1, hdone.2]
    intro hzero
    rw [bne, hzero]
    rfl
  · rw [hdone.1, hdone.2]
    intro hzero hnot
    rw [bne, hzero] at hnot
    cases hnot
  · rw [huser]
    exact hr.finish
  · intro n hn
    rw [hframes]
    exact Nat.le_succ_of_le (hr.past n hn)
  · intro _ n hn
    rw [hframes]
    exact Nat.lt_succ_of_le (hr.past n hn)
  · intro image begun frames hmain
    rw [huser] at hmain
    -- the image that is being filtered is not whole any more
    obtain ⟨hbegun, hlater, hframe, -⟩ := hr.filter image begun frames hmain
    rw [hframes]
    refine ⟨hbegun, hlater, Nat.le_succ_of_le hframe, iff_of_false ?_ ?_⟩
    · exact hs.frameEnd_content hfb1 hfb2 image hframe
    · exact Nat.ne_of_gt (Nat.lt_succ_of_le hframe)

theorem Rounds.irq (hr : Rounds log c ns) : Rounds log c.irq ns := by
  obtain ⟨a, b, hs⟩ := hr.streaming
  by_cases hsame : c.fb1Done = c.fb2Done
  · -- no frame has been done while another one was pending
    have hfb1 : c.fb1Done = false := by
      rw [Bool.eq_false_iff]
      intro hfb1
      have hfb2 := hr.single hfb1
      rw [← hsame, hfb1] at hfb2
      cases hfb2
    rw [Camera.irq_none hfb1 (hsame ▸ hfb1)]
    exact hr
  · have hstreaming := hs.irq
    have hcontent := (hs.pending hsame).2.2
    have hlater := hr.offered (.inl hsame)
    rw [hs.irq_one hsame, CsiUser.handed_eq] at hstreaming ⊢
    refine ⟨hstreaming, Bool.noConfusion, fun _ _ _ => hcontent, fun _ => rfl, hr.begun,
      hr.increasing, hr.whole, hr.past, fun _ => hlater, ?_⟩
    intro image begun frames hmain
    dsimp only at hmain
    split at hmain
    · cases hmain
    · exact hr.filter image begun frames hmain

theorem Camera.not_offered (hfb1 : c.fb1Done = false) (hfb2 : c.fb2Done = false)
    (hwoken : c.user.main ≠ .woken) (htake : c.user.main = .take → c.user.value = 0) :
    ¬ c.Offered := by
  rintro (hone | hmain | ⟨hmain, hmore⟩)
  · exact hone (hfb1.trans hfb2.symm)
  · exact hwoken hmain
  · exact absurd (htake hmain) (Nat.ne_of_gt hmore)

/-- A step of `main` that offers it no frame. -/
theorem Rounds.idle (hr : Rounds log c ns) (hfb1 : c.fb1Done = false) (hfb2 : c.fb2Done = false)
    {value : Nat} {main : MainLoop} (hvalue : 0 < value → 0 < c.user.value)
    (hwoken : main ≠ .woken) (htake : main = .take → value = 0)
    (hfilter : ∀ image begun frames, main ≠ .filter image begun frames) :
    Rounds log { c with user := { c.user with value, main } } ns := by
  obtain ⟨a, b, hs⟩ := hr.streaming
  refine ⟨⟨a, b, hs.streams, hs.image, hs.filling, hs.pending⟩, hr.single, hr.newest, ?_, hr.begun,
    hr.increasing, hr.whole, hr.past, ?_, ?_⟩
  · rintro (hmain | hmore)
    · exact absurd hmain hwoken
    · exact hr.finish (.inr (hvalue hmore))
  · intro hoffered
    exact absurd hoffered (Camera.not_offered hfb1 hfb2 hwoken htake)
  · intro image begun frames hmain
    exact absurd hmain (hfilter image begun frames)

/-- The semaphore is taken. -/
theorem Rounds.wake (hr : Rounds log c ns) (hmain : c.user.main = .take)
    (hmore : 0 < c.user.value) :
    Rounds log { c with user := { c.user with value := c.user.value - 1, main := .woken } } ns := by
  obtain ⟨a, b, hs⟩ := hr.streaming
  have hlater := hr.offered (.inr (.inr ⟨hmain, hmore⟩))
  refine ⟨⟨a, b, hs.streams, hs.image, hs.filling, hs.pending⟩, hr.single, hr.newest,
    fun _ => hr.finish (.inr hmore), hr.begun, hr.increasing, hr.whole, hr.past,
    fun _ => hlater, ?_⟩
  intro image begun frames hfilter
  cases hfilter

/-- `gray_mean_filter` begins with the newest frame. -/
theorem Rounds.begin (hr : Rounds log c ns) (hfb1 : c.fb1Done = false)
    (hfb2 : c.fb2Done = false) (hmain : c.user.main = .woken) :
    Rounds log { c with user := { c.user with
      main := .filter c.user.image (c.content c.user.image) c.frames } } ns := by
  obtain ⟨a, b, hs⟩ := hr.streaming
  have hlater := hr.offered (.inr (.inl hmain))
  have hnewest := hr.newest hfb1 hfb2 (hr.finish (.inl hmain))
  refine ⟨⟨a, b, hs.streams, hs.image, hs.filling, hs.pending⟩, hr.single, hr.newest, ?_, hr.begun,
    hr.increasing, hr.whole, hr.past, ?_, ?_⟩
  · rintro (hwoken | hmore)
    · cases hwoken
    · exact hr.finish (.inr hmore)
  · intro hoffered
    exact absurd hoffered (Camera.not_offered hfb1 hfb2 (by simp) (by simp))
  · rintro image begun frames ⟨⟩
    exact ⟨hnewest, hlater, Nat.le_refl _, iff_of_true hnewest rfl⟩

theorem Rounds.finishFilter (hr : Rounds log c ns) (hfb1 : c.fb1Done = false)
    (hfb2 : c.fb2Done = false) {image : CsiImage} {begun : Option Nat} {frames : Nat}
    (hmain : c.user.main = .filter image begun frames) :
    Rounds (log ++ [⟨begun, c.content image, c.frames - frames⟩])
      { c with user := { c.user with main := .work } } (ns ++ [frames]) := by
  obtain ⟨hbegun, hlater, hframes, hwhole⟩ := hr.filter image begun frames hmain
  have hidle : Rounds log { c with user := { c.user with main := .work } } ns :=
    hr.idle hfb1 hfb2 id (by simp) (by simp) (by simp)
  refine ⟨hidle.streaming, hr.single, hr.newest, hidle.finish, ?_, ?_, ?_, ?_, ?_, ?_⟩
  · rw [List.map_append, List.map_append, hr.begun, List.map_singleton, List.map_singleton, hbegun]
  · rw [List.pairwise_append]
    refine ⟨hr.increasing, List.pairwise_singleton _ _, fun n hn m hm => ?_⟩
    rw [List.mem_singleton.mp hm]
    exact hlater n hn
  · intro e he
    rcases List.mem_append.mp he with hold | hnew
    · exact hr.whole e hold
    · rw [List.mem_singleton.mp hnew, hbegun]
      dsimp only
      rw [hwhole]
      omega
  · intro n hn
    rcases List.mem_append.mp hn with hold | hnew
    · exact hr.past n hold
    · rw [List.mem_singleton.mp hnew]
      exact hframes
  · intro hoffered
    exact absurd hoffered (Camera.not_offered hfb1 hfb2 (by simp) (by simp))
  · rintro _ _ _ ⟨⟩

theorem Rounds.mainStep (hr : Rounds log c ns) (hfb1 : c.fb1Done = false)
    (hfb2 : c.fb2Done = false) :
    ∃ ns', Rounds (log ++ c.mainStep.log) c.mainStep.val ns' := by
  rw [Camera.mainStep]
  cases hmain : c.user.main with
  | reset =>
      dsimp only
      rw [log_pure, List.append_nil]
      exact ⟨ns, hr.idle hfb1 hfb2 (fun hmore => absurd hmore (Nat.lt_irrefl _)) (by simp)
        (fun _ => rfl) (by simp)⟩
  | take =>
      dsimp only
      split
      next hmore =>
        rw [log_pure, List.append_nil]
        exact ⟨ns, hr.wake hmain hmore⟩
      next hnone =>
        rw [log_pure, List.append_nil]
        exact ⟨ns, hr.idle hfb1 hfb2 id (by simp) (by simp) (by simp)⟩
  | blocked =>
      dsimp only
      rw [log_pure, List.append_nil]
      exact ⟨ns, hr⟩
  | woken =>
      dsimp only
      rw [log_pure, List.append_nil]
      exact ⟨ns, hr.begin hfb1 hfb2 hmain⟩
  | filter image begun frames =>
      dsimp only
      rw [log_bind, log_pure, List.append_nil]
      exact ⟨_, hr.finishFilter hfb1 hfb2 hmain⟩
  | work =>
      dsimp only
      rw [log_pure, List.append_nil]
      exact ⟨ns, hr.idle hfb1 hfb2 id (by simp) (by simp) (by simp)⟩

theorem Rounds.step (hr : Rounds log c ns) (x : CameraStep) (hprompt : x.Prompt c) :
    ∃ ns', Rounds (log ++ (x.exec c).log) (x.exec c).val ns' := by
  cases x with
  | frameEnd =>
      rw [CameraStep.exec, log_pure, List.append_nil]
      exact ⟨ns, hr.frameEnd hprompt.1 hprompt.2⟩
  | irq =>
      rw [CameraStep.exec, log_pure, List.append_nil]
      exact ⟨ns, hr.irq⟩
  | main => exact hr.mainStep hprompt.1 hprompt.2

end Steps

end SmartCar
