import Mathlib.Algebra.Group.Action.Defs
import Mathlib.Algebra.Order.BigOperators.Group.Finset
import SmartCar.ImageProcess.Gray

/-!
# Binarisation at the mean

The sum of all pixels fits into a `uint32_t`, so `mean_threshold` computes the mean
exactly, rounded down. The threshold formed from it grows slower than the mean: it
lies below the mean from 34 on, and not below it on an image of one level up to 33.
-/

namespace SmartCar

open Imperative Logged

variable (img out : Image)

noncomputable def pixelSum : Nat := ∑ p ∈ pixels, (img p.1 p.2).toNat

/-- The mean of all pixels, rounded down. -/
noncomputable def meanLevel : Nat := pixelSum img / 19200

/-! ## The sum -/

theorem addTo_ensures {sum x : UInt32} (h : sum.toNat + x.toNat < 2 ^ 32) :
    Ensures GrayStep.Fits (fun r => r.toNat = sum.toNat + x.toNat) (addTo sum x) := by
  constructor
  · simpa [addTo, GrayStep.Fits] using h
  · simp only [addTo, val_bind, val_pure, UInt32.toNat_add]
    exact Nat.mod_eq_of_lt h

/-- A loop that adds a term in each iteration is exact if the total fits. -/
theorem foldUp_adds {body : Int → UInt32 → Logged GrayStep UInt32} {lo hi : Int} (hle : lo ≤ hi)
    (term : Int → Nat) (sum : UInt32) (hfits : sum.toNat + ∑ i ∈ Finset.Ico lo hi, term i < 2 ^ 32)
    (hbody : ∀ i acc, lo ≤ i → i < hi → acc.toNat + term i < 2 ^ 32 →
      Ensures GrayStep.Fits (fun r => r.toNat = acc.toNat + term i) (body i acc)) :
    Ensures GrayStep.Fits (fun r => r.toNat = sum.toNat + ∑ i ∈ Finset.Ico lo hi, term i)
      (foldUp lo hi sum body) := by
  apply foldUp_ensures (fun i (acc : UInt32) =>
    acc.toNat = sum.toNat + ∑ j ∈ Finset.Ico lo i, term j)
  · exact (max_eq_right hle).symm
  · simp
  · intro i acc hlo hhi hacc
    have hterms : ∑ j ∈ Finset.Ico lo (i + 1), term j = ∑ j ∈ Finset.Ico lo i, term j + term i := by
      rw [← Finset.insert_Ico_right_eq_Ico_add_one hlo, Finset.sum_insert (by simp), add_comm]
    -- the terms that are still to come are not negative
    have hpart : ∑ j ∈ Finset.Ico lo (i + 1), term j ≤ ∑ j ∈ Finset.Ico lo hi, term j :=
      Finset.sum_le_sum_of_subset (Finset.Ico_subset_Ico_right hhi)
    have hnext := hbody i acc hlo hhi (by omega)
    rw [hacc, add_assoc, ← hterms] at hnext
    exact hnext

theorem pixelSum_eq_columns :
    pixelSum img = ∑ i ∈ Finset.Ico 0 160, ∑ j ∈ Finset.Ico 0 120, (img j i).toNat := by
  rw [pixelSum, pixels_eq, Finset.sum_product_right]

theorem pixelSum_le : pixelSum img ≤ 19200 * 255 := by
  have hterm : ∀ p ∈ pixels, (img p.1 p.2).toNat ≤ 255 := by
    intro p _
    have hlt := (img p.1 p.2).toNat_lt
    omega
  have hsum := Finset.sum_le_card_nsmul pixels _ 255 hterm
  rwa [card_pixels, smul_eq_mul] at hsum

theorem sumPixels_ensures :
    Ensures GrayStep.Fits (fun tv => tv.toNat = pixelSum img) (sumPixels img) := by
  have hle := pixelSum_le img
  rw [pixelSum_eq_columns] at hle ⊢
  have hcolumns : Ensures GrayStep.Fits (fun tv => tv.toNat =
      (0 : UInt32).toNat + ∑ i ∈ Finset.Ico 0 160, ∑ j ∈ Finset.Ico 0 120, (img j i).toNat)
      (sumPixels img) := by
    apply foldUp_adds (by decide) (fun i => ∑ j ∈ Finset.Ico 0 120, (img j i).toNat) 0
      (by rw [UInt32.toNat_zero]; omega)
    intro i acc _ _ hcolumn
    apply foldUp_adds (by decide) (fun j => (img j i).toNat) acc hcolumn
    intro j acc _ _ hfits
    apply Ensures.bind (Q := fun p => p = img j i)
    · exact ⟨(all_read _ _).mpr trivial, rfl⟩
    · rintro p rfl
      rw [← UInt8.toNat_toUInt32] at hfits ⊢
      exact addTo_ensures hfits
  simpa using hcolumns

/-! ## The threshold -/

theorem meanThreshold_eq : (meanThreshold img).val = 7 * meanLevel img / 10 + 10 := by
  have hmean : ((sumPixels img).val / 160 / 120).toNat = meanLevel img := by
    rw [UInt32.toNat_div, UInt32.toNat_div, (sumPixels_ensures img).2]
    exact Nat.div_div_eq_div_mul _ _ _
  simp only [meanThreshold, val_bind, val_pure, hmean]
  rw [Int.tdiv_eq_ediv_of_nonneg (by omega), mul_comm]

theorem meanLevel_le : meanLevel img ≤ 255 := Nat.div_le_of_le_mul (pixelSum_le img)

theorem meanThreshold_range :
    10 ≤ (meanThreshold img).val ∧ (meanThreshold img).val ≤ 188 := by
  have hle := meanLevel_le img
  rw [meanThreshold_eq]
  omega

/-! ## The image -/

theorem chooseThreshold_mean : chooseThreshold img 1 = meanThreshold img := by
  rw [chooseThreshold, if_pos (by decide)]

theorem writeBinary_val (imageThreshold : UInt8) : (writeBinary img imageThreshold out).val =
    fun i j => if (0 ≤ i ∧ i < 120) ∧ 0 ≤ j ∧ j < 160 then
      if img i j > imageThreshold then 255 else 0 else out i j :=
  foldUp_writeImage (fun i j => if img i j > imageThreshold then 255 else 0)
    fun _ _ _ _ _ _ _ => rfl

theorem grayToBinary_val (mode : UInt8) : (grayToBinary img out mode).val =
    ⟨UInt8.ofInt (chooseThreshold img mode).val,
      (writeBinary img (UInt8.ofInt (chooseThreshold img mode).val) out).val⟩ := by
  simp only [grayToBinary, val_bind, val_pure]

/-- The store to `ImageThreshold` loses nothing. -/
theorem imageThreshold_eq :
    ((grayToBinary img out 1).val.imageThreshold.toNat : Int) = (meanThreshold img).val := by
  obtain ⟨hlo, hhi⟩ := meanThreshold_range img
  rw [grayToBinary_val, chooseThreshold_mean]
  exact toNat_ofInt (le_trans (by decide) hlo) (lt_of_le_of_lt hhi (by decide))

theorem grayToBinary_pixel {i j : Int} (h : InImage i j) :
    (grayToBinary img out 1).val.imgOut i j =
      if (meanThreshold img).val < (img i j).toNat then 255 else 0 := by
  have hin : (0 ≤ i ∧ i < 120) ∧ 0 ≤ j ∧ j < 160 := h
  rw [← imageThreshold_eq img out, grayToBinary_val]
  simp only [writeBinary_val]
  rw [if_pos hin]
  simp only [gt_iff_lt, UInt8.lt_iff_toNat_lt, Nat.cast_lt]

theorem meanThreshold_inImage : All GrayStep.InImage (meanThreshold img) := by
  simp only [meanThreshold, sumPixels, all_bind, all_pure, and_true]
  refine (all_foldUp_image (p := fun i j => InImage j i) fun i j tv _ _ _ _ => ?_).mpr ?_
  · simp [Image.pixel, addTo, GrayStep.InImage]
  · exact fun i hlo hhi j hlo' hhi' => ⟨⟨hlo', hhi'⟩, hlo, hhi⟩

theorem grayToBinary_inImage : All GrayStep.InImage (grayToBinary img out 1) := by
  simp only [grayToBinary, chooseThreshold_mean, all_bind, all_pure, and_true]
  refine ⟨meanThreshold_inImage img, ?_⟩
  rw [writeBinary]
  refine (all_foldUp_image (p := InImage) fun i j out _ _ _ _ => ?_).mpr ?_
  · simp [Image.pixel, Image.write, GrayStep.InImage]
  · exact fun i hlo hhi j hlo' hhi' => ⟨⟨hlo, hhi⟩, hlo', hhi'⟩

/-- What `gray_to_binary` with mode 1 makes of an image. -/
structure MeanBinarised : Prop where
  inImage : All GrayStep.InImage (grayToBinary img out 1)
  fits : All GrayStep.Fits (meanThreshold img)
  sum : (sumPixels img).val.toNat = pixelSum img
  threshold : (meanThreshold img).val = 7 * meanLevel img / 10 + 10
  range : 10 ≤ (meanThreshold img).val ∧ (meanThreshold img).val ≤ 188
  stored : ((grayToBinary img out 1).val.imageThreshold.toNat : Int) = (meanThreshold img).val
  binary : ∀ i j, InImage i j → (grayToBinary img out 1).val.imgOut i j =
    if (meanThreshold img).val < (img i j).toNat then 255 else 0
  bright : 34 ≤ meanLevel img → ∃ i j, InImage i j ∧ (grayToBinary img out 1).val.imgOut i j = 255
  dark : (∀ i j, InImage i j → (img i j).toNat ≤ 10) →
    ∀ i j, InImage i j → (grayToBinary img out 1).val.imgOut i j = 0
  uniform : ∀ v : UInt8, v.toNat ≤ 33 → (∀ i j, InImage i j → img i j = v) →
    ∀ i j, InImage i j → (grayToBinary img out 1).val.imgOut i j = 0

theorem meanBinarised : MeanBinarised img out where
  inImage := grayToBinary_inImage img out
  fits := by
    simp only [meanThreshold, all_bind, all_pure, and_true]
    exact (sumPixels_ensures img).1
  sum := (sumPixels_ensures img).2
  threshold := meanThreshold_eq img
  range := meanThreshold_range img
  stored := imageThreshold_eq img out
  binary := fun i j => grayToBinary_pixel img out
  bright := by
    intro hbright
    by_contra! hdark
    -- an image without a pixel above the threshold has a mean of at most the threshold
    have hpixels : ∀ p ∈ pixels, (img p.1 p.2).toNat ≤ 7 * meanLevel img / 10 + 10 := by
      rintro ⟨i, j⟩ hp
      have hij := mem_pixels.mp hp
      have hpixel := hdark i j hij
      rw [grayToBinary_pixel img out hij, meanThreshold_eq] at hpixel
      by_contra hgt
      rw [if_pos (by dsimp only at hgt; omega)] at hpixel
      exact hpixel rfl
    have hsum := Finset.sum_le_card_nsmul pixels _ _ hpixels
    rw [card_pixels, smul_eq_mul] at hsum
    have hmean : meanLevel img ≤ 7 * meanLevel img / 10 + 10 := Nat.div_le_of_le_mul hsum
    omega
  dark := by
    intro hdark i j hij
    have hthreshold := (meanThreshold_range img).1
    have hpixel := hdark i j hij
    rw [grayToBinary_pixel img out hij, if_neg (by omega)]
  uniform := by
    intro v hv hall i j hij
    have hsum : pixelSum img = 19200 * v.toNat := by
      rw [pixelSum, Finset.sum_congr rfl fun p hp => by rw [hall p.1 p.2 (mem_pixels.mp hp)],
        Finset.sum_const, card_pixels, smul_eq_mul]
    have hmean : meanLevel img = v.toNat := by
      rw [meanLevel, hsum, Nat.mul_div_cancel_left _ (by decide)]
    rw [grayToBinary_pixel img out hij, meanThreshold_eq, hmean, hall i j hij, if_neg (by omega)]

end SmartCar
