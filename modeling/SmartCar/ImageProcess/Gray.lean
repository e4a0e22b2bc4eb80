import Mathlib.Data.Rat.Defs
import SmartCar.FindLines.State

/-!
# `imageProcess.c`

The filter of the gray image and its binarisation. Images are declared with 120
rows and 160 columns; a function that is given one may index beyond them and then
sees whatever the memory holds there, so an `Image` gives a value to every index.
The `float` arithmetic of `ostu_threshold` is taken as exact, over the rationals.
-/

namespace SmartCar

open Imperative Logged

/-! ## Steps -/

/-- What the functions of this file do, as far as it can go wrong. -/
inductive GrayStep where
  /-- `img[i][j]` is read. -/
  | pixel (i j : Int)
  /-- `img_out[i][j]` is written. -/
  | written (i j : Int)
  /-- A `uint32_t` is given a sum with this exact value. -/
  | added (exact : Nat)
  /-- Something is divided by this. -/
  | divided (divisor : ℚ)
deriving DecidableEq

/-- The indices lie inside the image as declared. -/
def InImage (i j : Int) : Prop := (0 ≤ i ∧ i < 120) ∧ 0 ≤ j ∧ j < 160

instance (i j : Int) : Decidable (InImage i j) := inferInstanceAs (Decidable (_ ∧ _))

/-- The indices of the image. -/
noncomputable def pixels : Finset (Int × Int) := Finset.Ico 0 120 ×ˢ Finset.Ico 0 160

theorem pixels_eq : pixels = Finset.Ico 0 120 ×ˢ Finset.Ico 0 160 := rfl

theorem mem_pixels {i j : Int} : (i, j) ∈ pixels ↔ InImage i j := by
  simp [pixels, InImage]

theorem card_pixels : pixels.card = 19200 := by
  simp [pixels]

attribute [irreducible] pixels

def GrayStep.InImage : GrayStep → Prop
  | .pixel i j | .written i j => SmartCar.InImage i j
  | _ => True

def GrayStep.Fits : GrayStep → Prop
  | .added exact => exact < 2 ^ 32
  | _ => True

def GrayStep.Divides : GrayStep → Prop
  | .divided divisor => divisor ≠ 0
  | _ => True

def Image.pixel (img : Image) (i j : Int) : Logged GrayStep UInt8 :=
  Logged.read (.pixel i j) (img i j)

/-- `img_out[i][j] = v`. -/
def Image.write (out : Image) (i j : Int) (v : UInt8) : Logged GrayStep Image := do
  Logged.touch (.written i j)
  return fun i' j' => if i' = i ∧ j' = j then v else out i' j'

@[simp] theorem val_pixel (img : Image) (i j : Int) : (img.pixel i j).val = img i j := rfl

@[simp] theorem val_write (out : Image) (i j : Int) (v : UInt8) : (out.write i j v).val =
    fun i' j' => if i' = i ∧ j' = j then v else out i' j' := rfl

/-- A byte that is stored to a `uint8_t` is kept. -/
theorem toNat_ofInt {v : Int} (hlo : 0 ≤ v) (hhi : v < 256) : ((UInt8.ofInt v).toNat : Int) = v := by
  rw [UInt8.ofInt, UInt8.toNat_ofNat']
  omega

/-- `sum += x` for a `uint32_t`. -/
def addTo (sum x : UInt32) : Logged GrayStep UInt32 := do
  Logged.touch (.added (sum.toNat + x.toNat))
  return sum + x

/-- A quotient of `float`; `none` is not a number. -/
def divide (a b : ℚ) : Logged GrayStep (Option ℚ) := do
  Logged.touch (.divided b)
  return if b = 0 then none else some (a / b)

/-! ## The filter -/

/-- The sum of the nine pixels around row `y`, column `x`. -/
def sumAround (img : Image) (y x : Int) : Logged GrayStep Int := do
  let a ← img.pixel (y - 1) (x - 1)
  let b ← img.pixel (y - 1) x
  let c ← img.pixel (y - 1) (x + 1)
  let d ← img.pixel y (x - 1)
  let e ← img.pixel y x
  let f ← img.pixel y (x + 1)
  let g ← img.pixel (y + 1) (x - 1)
  let h ← img.pixel (y + 1) x
  let i ← img.pixel (y + 1) (x + 1)
  return a.toNat + b.toNat + c.toNat + d.toNat + e.toNat + f.toNat + g.toNat + h.toNat + i.toNat

/-- `img_out[y][x] = img[y][x]`. -/
def copyPixel (img out : Image) (y x : Int) : Logged GrayStep Image := do
  out.write y x (← img.pixel y x)

/-- The first pass: rows 1 to 119, columns 1 to 159. -/
def meanPass (img out : Image) : Logged GrayStep Image :=
  foldUp 1 120 out fun y out =>
    foldUp 1 160 out fun x out => do
      out.write y x (UInt8.ofInt ((← sumAround img y x).tdiv 9))

/-- The upper and the lower border. -/
def copyRows (img out : Image) : Logged GrayStep Image :=
  foldUp 0 160 out fun x out => do
    let out ← copyPixel img out 0 x
    copyPixel img out 119 x

/-- The left and the right border. -/
def copyColumns (img out : Image) : Logged GrayStep Image :=
  foldUp 1 119 out fun y out => do
    let out ← copyPixel img out y 0
    copyPixel img out y 159

def grayMeanFilter (img out : Image) : Logged GrayStep Image := do
  let out ← meanPass img out
  let out ← copyRows img out
  copyColumns img out

/-! ## The thresholds -/

/-- `tv` after the loops of `mean_threshold`. -/
def sumPixels (img : Image) : Logged GrayStep UInt32 :=
  foldUp 0 160 0 fun i tv =>
    foldUp 0 120 tv fun j tv => do addTo tv (← img.pixel j i).toUInt32

def meanThreshold (img : Image) : Logged GrayStep Int := do
  let tv ← sumPixels img
  let threshold : Int := (tv / 160 / 120).toNat
  return (threshold * 7).tdiv 10 + 10

/-- `HistoGram`. -/
abbrev Histogram := Int → UInt8

/-- `HistoGram` after it is cleared and the pixels are counted. -/
def countLevels (img : Image) : Logged GrayStep Histogram :=
  foldUp 0 160 (fun _ => 0) fun j hist =>
    foldUp 0 120 hist fun i hist => do
      let level : Int := (← img.pixel j i).toNat
      return Function.update hist level (hist level + 1)

def minValue (hist : Histogram) : Int :=
  ((scanUp (ε := GrayStep) 0 256 fun v => Logged.check (hist v ≠ 0)).val).getD 256

/-- The search for the highest level looks at the cell of the lowest one. -/
def maxValue (hist : Histogram) : Int :=
  ((scanDown (ε := GrayStep) 255 (minValue hist) fun _ =>
    Logged.check (hist (minValue hist) ≠ 0)).val).getD (min 255 (minValue hist))

/-- The variables of the search for the best threshold. -/
structure OtsuSearch where
  pixelBack : UInt32
  pixelIntegralBack : UInt32
  sigmaB : ℚ
  threshold : Int

/-- `HistoGram[j] * j`. -/
def weighted (hist : Histogram) (j : Int) : UInt32 := UInt32.ofInt ((hist j).toNat * j)

/-- `OmegaBack * OmegaFore * (MicroBack - MicroFore) * (MicroBack - MicroFore)`. -/
def sigma (omegaBack omegaFore microBack microFore : Option ℚ) : Option ℚ := do
  return (← omegaBack) * (← omegaFore) * ((← microBack) - (← microFore)) *
    ((← microBack) - (← microFore))

/-- An iteration of the search. A comparison with what is not a number fails. -/
def otsuStep (hist : Histogram) (amount pixelIntegral : UInt32) (j : Int) (s : OtsuSearch) :
    Logged GrayStep OtsuSearch := do
  let pixelBack ← addTo s.pixelBack (hist j).toUInt32
  let pixelFore := (amount - pixelBack).toInt32.toInt
  let omegaBack ← divide pixelBack.toNat amount.toNat
  let omegaFore ← divide pixelFore amount.toNat
  let pixelIntegralBack ← addTo s.pixelIntegralBack (weighted hist j)
  let pixelIntegralFore := (pixelIntegral - pixelIntegralBack).toInt32.toInt
  let microBack ← divide pixelIntegralBack.toNat pixelBack.toNat
  let microFore ← divide pixelIntegralFore pixelFore
  match sigma omegaBack omegaFore microBack microFore with
  | some sigma =>
      if sigma > s.sigmaB then return ⟨pixelBack, pixelIntegralBack, sigma, j⟩
      else return { s with pixelBack, pixelIntegralBack }
  | none => return { s with pixelBack, pixelIntegralBack }

def bestThreshold (hist : Histogram) : Logged GrayStep Int := do
  let amount ← foldUp (minValue hist) (maxValue hist + 1) 0 fun j amount =>
    addTo amount (hist j).toUInt32
  let pixelIntegral ← foldUp (minValue hist) (maxValue hist + 1) 0 fun j sum =>
    addTo sum (weighted hist j)
  let s ← foldUp (minValue hist) (maxValue hist) ⟨0, 0, -1, 0⟩ (otsuStep hist amount pixelIntegral)
  return s.threshold

/-- `ostu_threshold`: what it leaves in `HistoGram`, and what it returns. -/
def ostuThreshold (img : Image) : Logged GrayStep (Histogram × Int) := do
  let hist ← countLevels img
  if maxValue hist = minValue hist then return (hist, maxValue hist)
  else if minValue hist + 1 = maxValue hist then return (hist, minValue hist)
  else return (hist, ← bestThreshold hist)

/-! ## The binary image -/

/-- `ImageThreshold` and `img_out` after `gray_to_binary`. -/
structure Binarised where
  imageThreshold : UInt8
  imgOut : Image

/-- The threshold of the mode, before it is stored. -/
def chooseThreshold (img : Image) (mode : UInt8) : Logged GrayStep Int :=
  if mode ≠ 0 then meanThreshold img else (·.2) <$> ostuThreshold img

/-- The loops of `gray_to_binary`. -/
def writeBinary (img : Image) (imageThreshold : UInt8) (out : Image) : Logged GrayStep Image :=
  foldUp 0 120 out fun i out =>
    foldUp 0 160 out fun j out => do
      out.write i j (if (← img.pixel i j) > imageThreshold then 255 else 0)

def grayToBinary (img out : Image) (mode : UInt8) : Logged GrayStep Binarised := do
  let imageThreshold := UInt8.ofInt (← chooseThreshold img mode)
  let imgOut ← writeBinary img imageThreshold out
  return { imageThreshold, imgOut }

/-! ## Loops over an image -/

section Loops

variable {lo hi lo' hi' : Int}

theorem all_foldUp_image {σ : Type} {P : GrayStep → Prop} {s : σ}
    {body : Int → Int → σ → Logged GrayStep σ} {p : Int → Int → Prop}
    (h : ∀ i j s, lo ≤ i → i < hi → lo' ≤ j → j < hi' → (All P (body i j s) ↔ p i j)) :
    All P (foldUp lo hi s fun i s => foldUp lo' hi' s (body i)) ↔
      ∀ i, lo ≤ i → i < hi → ∀ j, lo' ≤ j → j < hi' → p i j :=
  all_foldUp_iff fun i _ hlo hhi => all_foldUp_iff fun j s hlo' hhi' => h i j s hlo hhi hlo' hhi'

variable {out : Image} (g : Int → Int → UInt8)

theorem foldUp_writeRow {i : Int} {body : Int → Image → Logged GrayStep Image}
    (hbody : ∀ j out, lo ≤ j → j < hi → (body j out).val = (out.write i j (g i j)).val) :
    (foldUp lo hi out body).val =
      fun i' j' => if i' = i ∧ lo ≤ j' ∧ j' < hi then g i j' else out i' j' := by
  funext i' j'
  have hwrite : (foldUp lo hi out body).val i' j' =
      if (lo ≤ j' ∧ j' < hi) ∧ i' = i then g i j' else out i' j' := by
    apply foldUp_write (fun (out : Image) (p : Int × Int) => out p.1 p.2) (fun p => p.2)
      (fun p => p.1 = i) (fun p => g i p.2) ?_ (i', j')
    intro j out hlo hhi p
    rw [hbody j out hlo hhi, val_write]
    simp only [and_comm]
    split
    next heq => rw [heq.2]
    next => rfl
  simp only [and_comm] at hwrite ⊢
  exact hwrite

/-- Nested loops that write one pixel each. -/
theorem foldUp_writeImage {body : Int → Int → Image → Logged GrayStep Image}
    (hbody : ∀ i j out, lo ≤ i → i < hi → lo' ≤ j → j < hi' →
      (body i j out).val = (out.write i j (g i j)).val) :
    (foldUp lo hi out fun i out => foldUp lo' hi' out (body i)).val =
      fun i' j' => if (lo ≤ i' ∧ i' < hi) ∧ lo' ≤ j' ∧ j' < hi' then g i' j' else out i' j' := by
  funext i' j'
  apply foldUp_write (fun (out : Image) (p : Int × Int) => out p.1 p.2) (fun p => p.1)
    (fun p => lo' ≤ p.2 ∧ p.2 < hi') (fun p => g p.1 p.2) ?_ (i', j')
  intro i out hlo hhi p
  rw [foldUp_writeRow g fun j out hlo' hhi' => hbody i j out hlo hhi hlo' hhi']
  dsimp only
  split
  next heq => rw [heq.1]
  next => rfl

end Loops

end SmartCar
