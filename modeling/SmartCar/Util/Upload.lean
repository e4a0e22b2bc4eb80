import Mathlib.Data.List.Range
import SmartCar.FindLines.State
import SmartCar.Imperative.Framing
import SmartCar.Imperative.Trace

/-!
# Uploads

The functions of `util.c` that send an image over the serial line, in the format of
the author and in that of the vendor. Text of other functions goes over the same
line. The uploads of binary images can be read from any position on: a program that
is started while an image is being sent finds the next one.
-/

namespace SmartCar

open Imperative Logged

/-! ## Sending -/

/-- `uart_putchar(USART_1, dat)` -/
def uartPutchar (dat : UInt8) : Logged UInt8 Unit := touch dat

/-- `rt_kprintf` of a text without conversions; the console is `USART_1`. -/
def rtKprintf (text : List UInt8) : Logged UInt8 Unit := ⟨(), text⟩

/-- The loops over the pixels. -/
def putPixels (g : Int → Int → UInt8) : Logged UInt8 Unit :=
  foldUp 0 120 () fun i _ => foldUp 0 160 () fun j _ => uartPutchar (g i j)

/-- A pixel of `BinImage` as it is sent. -/
def binByte (img : Image) (i j : Int) : UInt8 := if img i j ≠ 0 then 0xff else 0x00

/-- `START` -/
def startText : List UInt8 := [83, 84, 65, 82, 84]

/-- `END` and a newline. -/
def endText : List UInt8 := [69, 78, 68, 10]

def uploadMyBin (binImage : Image) : Logged UInt8 Unit := do
  rtKprintf startText
  putPixels (binByte binImage)
  rtKprintf endText

def uploadMyGray (csiImage : Image) : Logged UInt8 Unit := do
  rtKprintf startText
  putPixels csiImage
  rtKprintf endText

def uploadZfBin (binImage : Image) : Logged UInt8 Unit := do
  uartPutchar 0x00
  uartPutchar 0xff
  uartPutchar 0x01
  uartPutchar 0x01
  putPixels (binByte binImage)

def uploadZfGray (csiImage : Image) : Logged UInt8 Unit := do
  uartPutchar 0x00
  uartPutchar 0xff
  uartPutchar 0x01
  uartPutchar 0x01
  putPixels csiImage

/-! ## What is sent -/

/-- The pixels row by row. -/
def raster (g : Int → Int → UInt8) : List UInt8 :=
  (List.range 120).flatMap fun (i : Nat) => (List.range 160).map fun (j : Nat) => g i j

/-- Row `i`, column `j` of what has been received. -/
def pixelAt (payload : List UInt8) (i j : Nat) : UInt8 := payload.getD (160 * i + j) 0

/-- The image as far as its 120 rows and 160 columns go. -/
def shown (g : Int → Int → UInt8) (i : Fin 120) (j : Fin 160) : UInt8 := g (i : Nat) (j : Nat)

/-- The images that a program reads from the line, which looks for `header`. -/
def readImages (header line : List UInt8) : List (Fin 120 → Fin 160 → UInt8) :=
  (receive header 19200 line).map fun payload i j => pixelAt payload i j

/-- The header of the vendor's format. -/
def zfHeader : List UInt8 := [0x00, 0xff, 0x01, 0x01]

section Sent

variable {ε : Type}

theorem log_loop (body : Int → Unit → Logged ε Unit) (n : Nat) (lo : Int) :
    (loop 1 (fun i s => ForInStep.yield <$> body i s) n lo ()).log =
      (List.range n).flatMap fun (k : Nat) => (body (lo + k) ()).log := by
  induction n generalizing lo with
  | zero => rfl
  | succ n ih =>
      rw [List.range_succ_eq_map, List.flatMap_cons, List.flatMap_map]
      have hstep : (loop 1 (fun i s => ForInStep.yield <$> body i s) (n + 1) lo ()).log =
          ((body lo ()).log ++ []) ++
            (loop 1 (fun i s => ForInStep.yield <$> body i s) n (lo + 1) ()).log := rfl
      rw [hstep, ih, List.append_nil, Nat.cast_zero, add_zero]
      congr 1
      refine congrArg (List.flatMap · _) (funext fun k => ?_)
      rw [Nat.cast_succ, add_assoc, add_comm (1 : Int)]

theorem log_foldUp {body : Int → Unit → Logged ε Unit} {hi : Int} (n : Nat) (hn : hi = n) :
    (foldUp 0 hi () body).log = (List.range n).flatMap fun (k : Nat) => (body k ()).log := by
  have hlog := log_loop body n 0
  simp only [zero_add] at hlog
  rw [foldUp, forUp, sub_zero, hn, Int.toNat_natCast]
  exact hlog

theorem log_putPixels (g : Int → Int → UInt8) : (putPixels g).log = raster g := by
  have hrow : ∀ i : Int, (foldUp 0 160 () fun j _ => uartPutchar (g i j)).log =
      (List.range 160).map fun (j : Nat) => g i j := by
    intro i
    rw [log_foldUp 160 (by norm_num), List.map_eq_flatMap]
    rfl
  rw [putPixels, log_foldUp 120 (by norm_num), raster]
  simp only [hrow]

theorem length_raster (g : Int → Int → UInt8) : (raster g).length = 19200 := by
  simp [raster, List.length_flatMap]

/-- Rows of one length, read where row `i` holds its entry `j`. -/
theorem getElem?_flatMap {α β : Type} {n : Nat} {f : α → List β} (hlen : ∀ x, (f x).length = n)
    {j : Nat} (hj : j < n) (xs : List α) (i : Nat) :
    (xs.flatMap f)[n * i + j]? = xs[i]?.bind fun x => (f x)[j]? := by
  induction xs generalizing i with
  | nil => simp
  | cons x xs ih =>
      rw [List.flatMap_cons]
      cases i with
      | zero => simp [List.getElem?_append_left, hlen, hj]
      | succ i =>
          rw [List.getElem?_append_right (by rw [hlen, Nat.mul_succ]; omega), hlen, Nat.mul_succ,
            show n * i + n + j - n = n * i + j by omega, ih, List.getElem?_cons_succ]

/-- The image can be told from what is sent of it. -/
theorem pixelAt_raster (g : Int → Int → UInt8) :
    (fun (i : Fin 120) (j : Fin 160) => pixelAt (raster g) i j) = shown g := by
  funext i j
  rw [pixelAt, List.getD_eq_getElem?_getD, raster, getElem?_flatMap (fun _ => by simp) j.isLt]
  simp [shown]

theorem binByte_mem {img : Image} {x : UInt8} (hx : x ∈ raster (binByte img)) : x = 0xff ∨ x = 0 := by
  simp only [raster, List.mem_flatMap, List.mem_map] at hx
  obtain ⟨i, -, j, -, rfl⟩ := hx
  unfold binByte
  split
  · exact .inl rfl
  · exact .inr rfl

end Sent

/-! ## Receiving -/

/-- An upload of an image and the text that is printed after it. -/
structure Upload where
  image : Image
  text : List UInt8

/-- The uploads on the line. -/
def uploads (send : Image → Logged UInt8 Unit) (us : List Upload) : List UInt8 :=
  us.flatMap fun u => (send u.image).log ++ u.text

/-- The uploads that begin at position `p` of the line or later. -/
def uploadsFrom (send : Image → Logged UInt8 Unit) : Nat → List Upload → List Upload
  | _, [] => []
  | 0, us => us
  | p, u :: us => uploadsFrom send (p - ((send u.image).log ++ u.text).length) us

section Received

variable {us : List Upload} {send : Image → Logged UInt8 Unit} {g : Image → Int → Int → UInt8}
  {h h' trailer : List UInt8} {m : UInt8}

theorem log_uploadZfBin (img : Image) :
    (uploadZfBin img).log = zfHeader ++ (raster (binByte img) ++ []) := by
  rw [uploadZfBin, log_bind, log_bind, log_bind, log_bind, log_putPixels, List.append_nil]
  rfl

theorem log_uploadZfGray (img : Image) :
    (uploadZfGray img).log = zfHeader ++ (raster img ++ []) := by
  rw [uploadZfGray, log_bind, log_bind, log_bind, log_bind, log_putPixels, List.append_nil]
  rfl

theorem log_uploadMyBin (img : Image) :
    (uploadMyBin img).log = startText ++ (raster (binByte img) ++ endText) := by
  rw [uploadMyBin, log_bind, log_bind, log_putPixels]
  rfl

theorem log_uploadMyGray (img : Image) :
    (uploadMyGray img).log = startText ++ (raster img ++ endText) := by
  rw [uploadMyGray, log_bind, log_bind, log_putPixels]
  rfl

/-- An upload as a packet; what follows the pixels counts to the gap. -/
def Upload.packet (g : Image → Int → Int → UInt8) (trailer : List UInt8) (u : Upload) :
    Packet UInt8 :=
  ⟨raster (g u.image), trailer ++ u.text⟩

theorem block_packet (hsend : ∀ img, (send img).log = h ++ (raster (g img) ++ trailer))
    (u : Upload) : (u.packet g trailer).block h = (send u.image).log ++ u.text := by
  rw [hsend, Packet.block, Upload.packet]
  simp

theorem uploads_eq_stream (hsend : ∀ img, (send img).log = h ++ (raster (g img) ++ trailer))
    (us : List Upload) : uploads send us = stream h (us.map (Upload.packet g trailer)) := by
  rw [uploads, stream, List.flatMap_map]
  exact congrArg (List.flatMap · us) (funext fun u => (block_packet hsend u).symm)

theorem packetsFrom_map (hsend : ∀ img, (send img).log = h ++ (raster (g img) ++ trailer))
    (p : Nat) (us : List Upload) : packetsFrom h p (us.map (Upload.packet g trailer)) =
      (uploadsFrom send p us).map (Upload.packet g trailer) := by
  induction us generalizing p with
  | nil => cases p <;> rfl
  | cons u us ih =>
      cases p with
      | zero => rfl
      | succ p =>
          rw [List.map_cons, packetsFrom_cons p.succ_pos, block_packet hsend, ih]
          rfl

theorem map_pixelAt (g : Image → Int → Int → UInt8) (trailer : List UInt8) (us : List Upload) :
    ((us.map (Upload.packet g trailer)).map Packet.payload).map
        (fun payload (i : Fin 120) (j : Fin 160) => pixelAt payload i j) =
      us.map fun u => shown (g u.image) := by
  rw [List.map_map, List.map_map]
  exact congrArg (List.map · us) (funext fun u => pixelAt_raster (g u.image))

theorem length_packet : ∀ f ∈ us.map (Upload.packet g trailer), f.payload.length = 19200 := by
  intro f hf
  obtain ⟨u, -, rfl⟩ := List.mem_map.mp hf
  exact length_raster _

/-- Binary uploads with a header whose last byte is no pixel. -/
theorem readImages_drop (hsend : ∀ img, (send img).log = h ++ (raster (binByte img) ++ trailer))
    (hu : Unbordered h) (hh : h = h' ++ [m]) (hm : m ≠ 0 ∧ m ≠ 0xff) (htrailer : m ∉ trailer)
    (htext : ∀ u ∈ us, m ∉ u.text) (p : Nat) : readImages h ((uploads send us).drop p) =
      (uploadsFrom send p us).map fun u => shown (binByte u.image) := by
  have hclean : ∀ f ∈ us.map (Upload.packet binByte trailer), m ∉ f.payload ++ f.gap := by
    intro f hf
    obtain ⟨u, hu, rfl⟩ := List.mem_map.mp hf
    simp only [Upload.packet, List.mem_append, not_or]
    refine ⟨fun hmem => ?_, htrailer, htext u hu⟩
    rcases binByte_mem hmem with rfl | rfl
    · exact hm.2 rfl
    · exact hm.1 rfl
  rw [readImages, uploads_eq_stream hsend, receive_drop_stream hu hh length_packet hclean,
    packetsFrom_map hsend, map_pixelAt]

/-- Uploads of any images, read from the header of the first one on. -/
theorem readImages_uploads (hsend : ∀ img, (send img).log = h ++ (raster (g img) ++ trailer))
    (hu : Unbordered h) (hne : h ≠ []) (htext : ∀ u ∈ us, ¬ h <:+: trailer ++ u.text) :
    readImages h (uploads send us) = us.map fun u => shown (g u.image) := by
  have hgap : ∀ f ∈ us.map (Upload.packet g trailer), ¬ h <:+: f.gap := by
    intro f hf
    obtain ⟨u, hu, rfl⟩ := List.mem_map.mp hf
    exact htext u hu
  rw [readImages, uploads_eq_stream hsend, receive_stream hu hne length_packet hgap, map_pixelAt]

theorem zfHeader_eq : zfHeader = [0x00, 0xff, 0x01] ++ [0x01] := rfl

theorem startText_eq : startText = [83, 84, 65, 82] ++ [84] := rfl

/-- Whoever begins to read at any position of a line with uploads of binary images gets
the images whose uploads begin there or later, in the vendor's format if the text in
between does not hold the byte 1, and in the author's if it does not hold a `T`. -/
theorem readImages_anywhere (us : List Upload) (p : Nat) :
    ((∀ u ∈ us, 1 ∉ u.text) → readImages zfHeader ((uploads uploadZfBin us).drop p) =
        (uploadsFrom uploadZfBin p us).map fun u => shown (binByte u.image)) ∧
      ((∀ u ∈ us, 84 ∉ u.text) → readImages startText ((uploads uploadMyBin us).drop p) =
        (uploadsFrom uploadMyBin p us).map fun u => shown (binByte u.image)) := by
  constructor
  · intro htext
    exact readImages_drop log_uploadZfBin (by decide) zfHeader_eq (by decide) (by decide) htext p
  · intro htext
    exact readImages_drop log_uploadMyBin (by decide) startText_eq (by decide) (by decide) htext p

/-- A black image, a letter, and a white image, read from the second byte on. -/
theorem readImages_anywhere_two :
    readImages zfHeader ((uploads uploadZfBin
        [⟨fun _ _ => 0, [65]⟩, ⟨fun _ _ => 1, []⟩]).drop 1) =
      (uploadsFrom uploadZfBin 1 [⟨fun _ _ => 0, [65]⟩, ⟨fun _ _ => 1, []⟩]).map
        (fun u => shown (binByte u.image)) ∧
    readImages startText ((uploads uploadMyBin
        [⟨fun _ _ => 0, [65]⟩, ⟨fun _ _ => 1, []⟩]).drop 1) =
      (uploadsFrom uploadMyBin 1 [⟨fun _ _ => 0, [65]⟩, ⟨fun _ _ => 1, []⟩]).map
        fun u => shown (binByte u.image) :=
  ⟨(readImages_anywhere _ 1).1 (by simp), (readImages_anywhere _ 1).2 (by simp)⟩

/-- Gray images may look like headers, but whoever reads from the first header on gets
them all as they are, as long as the text in between does not look like a header. -/
theorem readImages_gray (us : List Upload) :
    ((∀ u ∈ us, ¬ zfHeader <:+: u.text) → readImages zfHeader (uploads uploadZfGray us) =
        us.map fun u => shown u.image) ∧
      ((∀ u ∈ us, ¬ startText <:+: endText ++ u.text) →
        readImages startText (uploads uploadMyGray us) = us.map fun u => shown u.image) := by
  constructor
  · intro htext
    exact readImages_uploads (g := id) log_uploadZfGray (by decide) (by decide) htext
  · intro htext
    exact readImages_uploads (g := id) log_uploadMyGray (by decide) (by decide) htext

theorem readImages_gray_two :
    readImages zfHeader (uploads uploadZfGray
        [⟨fun i j => if i = j then 0xff else 0, [65]⟩, ⟨fun _ _ => 1, []⟩]) =
      [shown fun i j => if i = j then 0xff else 0, shown fun _ _ => 1] ∧
    readImages startText (uploads uploadMyGray
        [⟨fun i j => if i = j then 0xff else 0, [65]⟩, ⟨fun _ _ => 1, []⟩]) =
      [shown fun i j => if i = j then 0xff else 0, shown fun _ _ => 1] :=
  ⟨(readImages_gray _).1 (by decide), (readImages_gray _).2 (by decide)⟩

end Received

end SmartCar
