import SmartCar.ImageProcess.Gray

/-!
# The mean filter

The first pass of `gray_mean_filter` also visits the last row and the last column,
whose neighbours lie beyond the image. What it writes there is overwritten by the
copies of the border, so the output is right for every image; but no call of the
function stays inside the image it is given.
-/

namespace SmartCar

open Imperative Logged

variable (img out : Image)

/-! ## The passes -/

/-- The sum of the pixels at most one row and one column away. -/
noncomputable def neighbourSum (y x : Int) : Nat :=
  ∑ v ∈ Finset.Icc (y - 1) (y + 1), ∑ u ∈ Finset.Icc (x - 1) (x + 1), (img v u).toNat

theorem sum_Icc_three (f : Int → Nat) (y : Int) :
    ∑ v ∈ Finset.Icc (y - 1) (y + 1), f v = f (y - 1) + f y + f (y + 1) := by
  have hrows : Finset.Icc (y - 1) (y + 1) = {y - 1, y, y + 1} := by
    ext v
    simp only [Finset.mem_Icc, Finset.mem_insert, Finset.mem_singleton]
    omega
  rw [hrows, Finset.sum_insert (by simp; omega), Finset.sum_insert (by simp),
    Finset.sum_singleton, add_assoc]

theorem sumAround_val (y x : Int) : (sumAround img y x).val = neighbourSum img y x := by
  simp only [sumAround, val_bind, val_pure, val_pixel, neighbourSum, sum_Icc_three]
  push_cast
  ring

/-- A mean of nine bytes is a byte. -/
theorem neighbourSum_div_lt (y x : Int) : neighbourSum img y x / 9 < 256 := by
  have hrow : ∀ v, ∑ u ∈ Finset.Icc (x - 1) (x + 1), (img v u).toNat ≤ 3 * 255 := by
    intro v
    have hleft := (img v (x - 1)).toNat_lt
    have hmid := (img v x).toNat_lt
    have hright := (img v (x + 1)).toNat_lt
    rw [sum_Icc_three]
    omega
  have habove := hrow (y - 1)
  have hhere := hrow y
  have hbelow := hrow (y + 1)
  rw [neighbourSum, sum_Icc_three]
  omega

/-- What the first pass writes. -/
noncomputable def meanPixel (y x : Int) : UInt8 := UInt8.ofNat (neighbourSum img y x / 9)

theorem meanPixel_toNat (y x : Int) : (meanPixel img y x).toNat = neighbourSum img y x / 9 :=
  UInt8.toNat_ofNat_of_lt' (neighbourSum_div_lt img y x)

theorem meanPass_val : (meanPass img out).val = fun y x =>
    if (1 ≤ y ∧ y < 120) ∧ 1 ≤ x ∧ x < 160 then meanPixel img y x else out y x := by
  apply foldUp_writeImage (meanPixel img)
  intro y x out _ _ _ _
  have hmean : UInt8.ofInt ((neighbourSum img y x : Int).tdiv 9) = meanPixel img y x := by
    apply UInt8.toNat.inj
    have hlt := neighbourSum_div_lt img y x
    have hquot : (neighbourSum img y x : Int).tdiv 9 = (neighbourSum img y x / 9 : Nat) := by
      rw [Int.tdiv_eq_ediv_of_nonneg (by omega)]
      rfl
    rw [meanPixel_toNat, hquot]
    exact_mod_cast toNat_ofInt (v := (neighbourSum img y x / 9 : Nat)) (by omega) (by omega)
  simp only [val_bind, sumAround_val, hmean]

theorem copyPixel_val (y x : Int) : (copyPixel img out y x).val =
    fun y' x' => if y' = y ∧ x' = x then img y x else out y' x' := rfl

theorem copyRows_val : (copyRows img out).val = fun y x =>
    if (0 ≤ x ∧ x < 160) ∧ (y = 0 ∨ y = 119) then img y x else out y x := by
  funext y x
  apply foldUp_write (fun (out : Image) (p : Int × Int) => out p.1 p.2) (fun p => p.2)
    (fun p => p.1 = 0 ∨ p.1 = 119) (fun p => img p.1 p.2) ?_ (y, x)
  intro x out _ _ p
  simp only [val_bind, copyPixel_val]
  grind

theorem copyColumns_val : (copyColumns img out).val = fun y x =>
    if (1 ≤ y ∧ y < 119) ∧ (x = 0 ∨ x = 159) then img y x else out y x := by
  funext y x
  apply foldUp_write (fun (out : Image) (p : Int × Int) => out p.1 p.2) (fun p => p.1)
    (fun p => p.2 = 0 ∨ p.2 = 159) (fun p => img p.1 p.2) ?_ (y, x)
  intro y out _ _ p
  simp only [val_bind, copyPixel_val]
  grind

/-! ## The output -/

/-- The output is the mean of the neighbours inside, and the image on its border. -/
structure Filtered (result : Image) : Prop where
  inner : ∀ y x, (1 ≤ y ∧ y ≤ 118) → (1 ≤ x ∧ x ≤ 158) →
    (result y x).toNat = neighbourSum img y x / 9
  border : ∀ y x, InImage y x → (y = 0 ∨ y = 119 ∨ x = 0 ∨ x = 159) → result y x = img y x

/-- The copies of the border overwrite what the first pass has read from beyond it. -/
theorem grayMeanFilter_filtered : Filtered img (grayMeanFilter img out).val := by
  simp only [grayMeanFilter, val_bind, copyColumns_val, copyRows_val, meanPass_val]
  constructor
  · intro y x hy hx
    rw [if_neg (by omega), if_neg (by omega), if_pos (by omega), meanPixel_toNat]
  · rintro y x ⟨hy, hx⟩ hborder
    by_cases hcolumn : (1 ≤ y ∧ y < 119) ∧ (x = 0 ∨ x = 159)
    · rw [if_pos hcolumn]
    · rw [if_neg hcolumn, if_pos (by omega)]

/-! ## The accesses -/

/-- The filter stays inside the image and filters it. -/
structure FiltersInside : Prop where
  inImage : All GrayStep.InImage (grayMeanFilter img out)
  filtered : Filtered img (grayMeanFilter img out).val

/-- Around row 119 the first pass reads row 120. -/
theorem meanPass_leaves : ¬ All GrayStep.InImage (meanPass img out) := by
  intro hin
  have hreads : All GrayStep.InImage (meanPass img out) ↔ ∀ y, 1 ≤ y → y < 120 →
      ∀ x, 1 ≤ x → x < 160 → All GrayStep.InImage (sumAround img y x) ∧ InImage y x :=
    all_foldUp_image fun y x out _ _ _ _ => by simp [Image.write, GrayStep.InImage]
  have hlast := (hreads.mp hin 119 (by decide) (by decide) 1 (by decide) (by decide)).1
  simp [sumAround, Image.pixel, GrayStep.InImage, InImage] at hlast

/-- No call of the filter stays inside the image. -/
theorem grayMeanFilter_leaves : ¬ FiltersInside img out := by
  rintro ⟨hin, -⟩
  simp only [grayMeanFilter, all_bind] at hin
  exact meanPass_leaves img out hin.1

/-- A black image that is filtered into another one. -/
theorem blackImage_leaves : ¬ ∀ img out, FiltersInside img out := by
  intro hclaim
  have hin := (hclaim (fun _ _ => 0) fun _ _ => 0).inImage
  simp only [grayMeanFilter, all_bind] at hin
  exact meanPass_leaves _ _ hin.1

end SmartCar
