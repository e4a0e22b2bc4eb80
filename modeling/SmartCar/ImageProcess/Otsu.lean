import Mathlib.Data.Rat.Lemmas
import Mathlib.Algebra.BigOperators.Field
import SmartCar.ImageProcess.Gray

/-!
# The threshold of `ostu_threshold`

The loops that count the levels take the column for the row: they read 160 rows of
120 columns, the last 40 of them behind the image. The cells of the histogram count
modulo 256, so that an image of one level may leave them all empty. On no image does
the function compute Otsu's threshold whatever lies behind the image.
-/

namespace SmartCar

open Imperative Logged

/-! ## Otsu's threshold -/

section Threshold

variable (img : Image)

noncomputable def levelCount (v : UInt8) : Nat := (pixels.filter fun p => img p.1 p.2 = v).card

/-- The pixels of at most a level, and those above it. -/
noncomputable def backPixels (t : Int) : Finset (Int × Int) :=
  pixels.filter fun p => (img p.1 p.2).toNat ≤ t

noncomputable def forePixels (t : Int) : Finset (Int × Int) :=
  pixels.filter fun p => t < (img p.1 p.2).toNat

noncomputable def classWeight (c : Finset (Int × Int)) : ℚ := c.card / pixels.card

noncomputable def classMean (c : Finset (Int × Int)) : ℚ :=
  (∑ p ∈ c, ((img p.1 p.2).toNat : ℚ)) / c.card

noncomputable def betweenVariance (t : Int) : ℚ :=
  classWeight (backPixels img t) * classWeight (forePixels img t) *
    (classMean img (backPixels img t) - classMean img (forePixels img t)) ^ 2

/-- Both classes of the split have pixels. -/
def Splits (t : Int) : Prop := (backPixels img t).Nonempty ∧ (forePixels img t).Nonempty

/-- The level splits the image, and no other split has more variance between its classes. -/
def OtsuLevel (t : Int) : Prop :=
  Splits img t ∧ ∀ u, Splits img u → betweenVariance img u ≤ betweenVariance img t

def OneLevel (v : UInt8) : Prop := ∀ i j, InImage i j → img i j = v

end Threshold

/-! ## What the function should do -/

/-- The memory holds the image, and anything behind it. -/
def Holds (mem img : Image) : Prop := ∀ i j, InImage i j → mem i j = img i j

/-- The call computes the threshold of an image of several levels. -/
structure ComputesOtsu (mem img : Image) : Prop where
  inImage : All GrayStep.InImage (ostuThreshold mem)
  once : ∀ i j, InImage i j → (ostuThreshold mem).log.count (.pixel i j) = 1
  counts : ∀ v : UInt8, ((ostuThreshold mem).val.1 v.toNat).toNat = levelCount img v
  total : ∑ v ∈ Finset.range 256, ((ostuThreshold mem).val.1 v).toNat = 19200
  divides : All GrayStep.Divides (ostuThreshold mem)
  level : OtsuLevel img (ostuThreshold mem).val.2

/-- Wherever the image lies in memory, the call returns its threshold, or its only level. -/
structure OtsuCorrect (img : Image) : Prop where
  levels : (∀ v, ¬ OneLevel img v) → ∀ mem, Holds mem img → ComputesOtsu mem img
  oneLevel : ∀ v, OneLevel img v → ∀ mem, Holds mem img → (ostuThreshold mem).val.2 = v.toNat

/-! ## The pixels that are read -/

/-- Column 120 of the image is taken for row 120. -/
theorem countLevels_leaves (mem : Image) : ¬ All GrayStep.InImage (countLevels mem) := by
  intro hin
  have hreads : All GrayStep.InImage (countLevels mem) ↔ ∀ j, 0 ≤ j → j < 160 →
      ∀ i, 0 ≤ i → i < 120 → InImage j i :=
    all_foldUp_image fun j i hist _ _ _ _ => by simp [Image.pixel, GrayStep.InImage]
  have hrow := hreads.mp hin 120 (by decide) (by decide) 0 (by decide) (by decide)
  exact absurd hrow.1.2 (by decide)

theorem ostuThreshold_leaves (mem : Image) : ¬ All GrayStep.InImage (ostuThreshold mem) := by
  intro hin
  simp only [ostuThreshold, all_bind] at hin
  exact countLevels_leaves mem hin.1

/-! ## The histogram -/

/-- A loop whose iterations add to the cells of a histogram. -/
theorem foldUp_bumps {body : Int → Histogram → Logged GrayStep Histogram} {lo hi : Int}
    (hle : lo ≤ hi) (n : Int → Int → Nat) (hist : Histogram)
    (hbody : ∀ i hist, (body i hist).val = fun v => hist v + UInt8.ofNat (n i v)) :
    (foldUp lo hi hist body).val =
      fun v => hist v + UInt8.ofNat (∑ i ∈ Finset.Ico lo hi, n i v) := by
  apply foldUp_rule (fun i (h : Histogram) =>
    h = fun v => hist v + UInt8.ofNat (∑ j ∈ Finset.Ico lo i, n j v))
  · exact (max_eq_right hle).symm
  · simp
  · rintro i h hlo _ rfl
    rw [hbody]
    funext v
    rw [← Finset.insert_Ico_right_eq_Ico_add_one hlo, Finset.sum_insert (by simp), add_comm (n i v),
      UInt8.ofNat_add, UInt8.add_assoc]

/-- How many of the pixels that are read have the level. -/
noncomputable def readCount (mem : Image) (v : Int) : Nat :=
  ∑ j ∈ Finset.Ico 0 160, ∑ i ∈ Finset.Ico 0 120, if ((mem j i).toNat : Int) = v then 1 else 0

theorem countLevels_val (mem : Image) :
    (countLevels mem).val = fun v => UInt8.ofNat (readCount mem v) := by
  have hrows : (countLevels mem).val = fun v => 0 + UInt8.ofNat (readCount mem v) := by
    apply foldUp_bumps (by decide)
      fun j v => ∑ i ∈ Finset.Ico 0 120, if ((mem j i).toNat : Int) = v then 1 else 0
    intro j hist
    apply foldUp_bumps (by decide) fun i v => if ((mem j i).toNat : Int) = v then 1 else 0
    intro i hist
    funext v
    simp only [val_bind, val_pure, val_pixel, Function.update_apply]
    split
    next heq => rw [if_pos heq.symm, heq]; rfl
    next hne => rw [if_neg (Ne.symm hne)]; simp
  simpa only [UInt8.zero_add] using hrows

/-- Memory each of whose rows has a single level, which rows `lo` to `hi - 1` share. -/
theorem readCount_rows {level : Int → UInt8} {v : Int} (lo hi : Int) (hlo : 0 ≤ lo) (hhi : hi ≤ 160)
    (hlevel : ∀ j, 0 ≤ j → j < 160 → (((level j).toNat : Int) = v ↔ lo ≤ j ∧ j < hi)) :
    readCount (fun j _ => level j) v = 120 * (hi - lo).toNat := by
  have hrows : (Finset.Ico 0 160).filter (fun j => ((level j).toNat : Int) = v) =
      Finset.Ico lo hi := by
    ext j
    simp only [Finset.mem_filter, Finset.mem_Ico]
    constructor
    · rintro ⟨⟨h₁, h₂⟩, hj⟩
      exact (hlevel j h₁ h₂).mp hj
    · rintro ⟨h₁, h₂⟩
      exact ⟨⟨by omega, by omega⟩, (hlevel j (by omega) (by omega)).mpr ⟨h₁, h₂⟩⟩
  rw [← Int.card_Ico, ← hrows, readCount, Finset.card_filter, Finset.mul_sum]
  apply Finset.sum_congr rfl
  intro j _
  rw [Finset.sum_const, Int.card_Ico]
  rfl

/-! ## Images of one level -/

theorem minValue_eq {hist : Histogram} {v : Int} (hlo : 0 ≤ v) (hhi : v < 256) (hv : hist v ≠ 0)
    (hbefore : ∀ u, 0 ≤ u → u < v → hist u = 0) : minValue hist = v := by
  have hspec := scanUp_spec (ε := GrayStep) 0 256 fun v => Logged.check (hist v ≠ 0)
  unfold minValue
  generalize (scanUp (ε := GrayStep) 0 256 fun v => Logged.check (hist v ≠ 0)).val = found at hspec ⊢
  cases found with
  | none => exact absurd hv (by simpa using hspec v hlo hhi)
  | some r =>
      obtain ⟨hr, -, htest, hmin⟩ := hspec
      rcases lt_trichotomy r v with hlt | heq | hgt
      · exact absurd (hbefore r hr hlt) (by simpa using htest)
      · exact heq
      · exact absurd hv (by simpa using hmin v hlo hgt)

theorem minValue_empty {hist : Histogram} (h : ∀ v, hist v = 0) : minValue hist = 256 := by
  have hspec := scanUp_spec (ε := GrayStep) 0 256 fun v => Logged.check (hist v ≠ 0)
  unfold minValue
  generalize (scanUp (ε := GrayStep) 0 256 fun v => Logged.check (hist v ≠ 0)).val = found at hspec ⊢
  cases found with
  | none => rfl
  | some r => exact absurd (h r) (by simpa using hspec.2.2.1)

/-- If the lowest level has pixels, the search for the highest one ends where it starts. -/
theorem maxValue_eq {hist : Histogram} (hlt : minValue hist < 255) (h : hist (minValue hist) ≠ 0) :
    maxValue hist = 255 := by
  have hspec := scanDown_spec (ε := GrayStep) 255 (minValue hist) fun _ =>
    Logged.check (hist (minValue hist) ≠ 0)
  unfold maxValue
  generalize (scanDown (ε := GrayStep) 255 (minValue hist) fun _ =>
    Logged.check (hist (minValue hist) ≠ 0)).val = found at hspec ⊢
  cases found with
  | none => exact absurd h (by simpa using hspec 255 hlt le_rfl)
  | some r =>
      obtain ⟨-, hr, -, hmax⟩ := hspec
      rcases eq_or_lt_of_le hr with heq | hlt
      · exact heq
      · exact absurd h (by simpa using hmax 255 hlt le_rfl)

theorem maxValue_empty {hist : Histogram} (h : minValue hist = 256) : maxValue hist = 255 := by
  have hspec := scanDown_spec (ε := GrayStep) 255 (minValue hist) fun _ =>
    Logged.check (hist (minValue hist) ≠ 0)
  unfold maxValue
  generalize (scanDown (ε := GrayStep) 255 (minValue hist) fun _ =>
    Logged.check (hist (minValue hist) ≠ 0)).val = found at hspec ⊢
  cases found with
  | none => rw [h]; rfl
  | some r =>
      obtain ⟨hlo, hhi, -, -⟩ := hspec
      omega

theorem ostuThreshold_level (mem : Image) : (ostuThreshold mem).val.2 =
    if maxValue (countLevels mem).val = minValue (countLevels mem).val then
      maxValue (countLevels mem).val
    else if minValue (countLevels mem).val + 1 = maxValue (countLevels mem).val then
      minValue (countLevels mem).val
    else (bestThreshold (countLevels mem).val).val := by
  simp only [ostuThreshold, val_bind]
  split
  next => rfl
  next =>
    split
    next => rfl
    next => rfl

/-- An empty histogram has no level, and the result is 0. -/
theorem ostuThreshold_empty {mem : Image} (h : ∀ v, (countLevels mem).val v = 0) :
    (ostuThreshold mem).val.2 = 0 := by
  have hmin := minValue_empty h
  have hmax := maxValue_empty hmin
  rw [ostuThreshold_level, hmin, hmax, if_neg (by decide), if_neg (by decide)]
  simp only [bestThreshold, val_bind, hmin, hmax, foldUp_of_le (show (255 : Int) ≤ 256 by decide),
    val_pure]

/-- A histogram whose lowest level is 254 is taken for one of two levels. -/
theorem ostuThreshold_two {mem : Image} (hmin : minValue (countLevels mem).val = 254)
    (h : (countLevels mem).val 254 ≠ 0) : (ostuThreshold mem).val.2 = 254 := by
  have hmax : maxValue (countLevels mem).val = 255 := maxValue_eq (by omega) (by rwa [hmin])
  rw [ostuThreshold_level, hmin, hmax, if_neg (by decide), if_pos (by decide)]

/-- A black image with eight more black rows behind it, so that the black pixels that
are read are a multiple of 256. -/
def blackBefore (j : Int) : UInt8 := if j < 128 then 0 else if j < 129 then 254 else 255

theorem blackBefore_toNat (j : Int) : ((blackBefore j).toNat : Int) =
    if j < 128 then 0 else if j < 129 then 254 else 255 := by
  unfold blackBefore
  split
  next => rfl
  next => split <;> rfl

/-- The black rows leave the cell of their level at 0 modulo 256. -/
theorem blackBefore_histogram {v : Int} (hlo : 0 ≤ v) (hhi : v < 254) :
    (countLevels fun j _ => blackBefore j).val v = 0 := by
  rw [countLevels_val]
  dsimp only
  rcases eq_or_lt_of_le hlo with rfl | hpos
  · rw [readCount_rows 0 128 le_rfl (by decide)]
    · rfl
    · intro j _ _
      rw [blackBefore_toNat]
      grind
  · rw [readCount_rows 0 0 le_rfl (by decide)]
    · rfl
    · intro j _ _
      rw [blackBefore_toNat]
      grind

theorem blackBefore_lowest : (countLevels fun j _ => blackBefore j).val 254 ≠ 0 := by
  rw [countLevels_val]
  dsimp only
  rw [readCount_rows 128 129 (by decide) (by decide)]
  · decide
  · intro j _ _
    rw [blackBefore_toNat]
    grind

/-- What lies behind an image of one level can make the call return another one. -/
theorem oneLevel_wrong (v : UInt8) :
    ∃ mem : Image, (∀ i j, InImage i j → mem i j = v) ∧ (ostuThreshold mem).val.2 ≠ v.toNat := by
  by_cases hv : v = 0
  · subst hv
    refine ⟨fun j _ => blackBefore j, ?_, ?_⟩
    · rintro i j ⟨⟨-, hi⟩, -⟩
      exact if_pos (by omega)
    · have hmin := minValue_eq (by decide) (by decide) blackBefore_lowest
        fun u => blackBefore_histogram
      rw [ostuThreshold_two hmin blackBefore_lowest]
      decide
  · -- memory of the level of the image: 19200 pixels leave the cell of the level at 0
    refine ⟨fun _ _ => v, fun _ _ _ => rfl, ?_⟩
    rw [ostuThreshold_empty]
    · intro hzero
      apply hv
      apply UInt8.toNat.inj
      exact_mod_cast hzero.symm
    · intro u
      rw [countLevels_val]
      dsimp only
      by_cases hu : (v.toNat : Int) = u
      · rw [readCount_rows 0 160 le_rfl le_rfl fun j h₁ h₂ =>
          iff_of_true hu ⟨h₁, h₂⟩]
        rfl
      · rw [readCount_rows 0 0 le_rfl (by decide) fun j h₁ h₂ =>
          iff_of_false hu (by omega)]
        rfl

/-- On no image does the call compute the threshold wherever the image lies. -/
theorem ostuThreshold_wrong (img : Image) : ¬ OtsuCorrect img := by
  intro hcorrect
  by_cases hlevel : ∃ v, OneLevel img v
  · obtain ⟨v, hv⟩ := hlevel
    obtain ⟨mem, hmem, hwrong⟩ := oneLevel_wrong v
    exact hwrong (hcorrect.oneLevel v hv mem fun i j hij => (hmem i j hij).trans (hv i j hij).symm)
  · have hlevels := hcorrect.levels (not_exists.mp hlevel) img fun _ _ _ => rfl
    exact ostuThreshold_leaves img hlevels.inImage

/-- A single white pixel. -/
def whiteDot : Image := fun i j => if i = 0 ∧ j = 0 then 255 else 0

theorem whiteDot_wrong : ¬ ∀ img, OtsuCorrect img := by
  intro hclaim
  have hlevels : ∀ v, ¬ OneLevel whiteDot v := by
    intro v hv
    have hdot := hv 0 0 (by decide)
    have hother := hv 0 1 (by decide)
    rw [← hother] at hdot
    exact absurd hdot (by decide)
  exact ostuThreshold_leaves whiteDot
    ((hclaim whiteDot).levels hlevels whiteDot fun _ _ _ => rfl).inImage

end SmartCar
