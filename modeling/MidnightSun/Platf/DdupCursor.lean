import Mathlib.Data.Int.Notation
import Mathlib.Data.List.Basic
import Mathlib.Data.Nat.Bitwise
import Mathlib.Data.Rat.Defs
import Mathlib.Tactic.FieldSimp
import Mathlib.Tactic.Ring
import MidnightSun.Lib.Raster

/-!
# The cursor of the Windows capture (src/platform/windows/display.h, display_vram.cpp)

Windows gives the shape of the pointer as a picture or as two bit masks.  The capture makes two images of it: one that
is alpha-blended onto the frame and one whose colours invert those of the frame.  `gpu_cursor_t` keeps such an image
and the rectangle of the frame that it is drawn into.

* `monochrome_blend`: the two images of a monochrome pointer, drawn one after the other, do what the masks say.
-/

namespace MidnightSun.Platf.Dxgi

open Lib.Raster

/-! ### Images of the pointer -/

def black : Pixel := ⟨0, 0, 0, 255⟩

def white : Pixel := ⟨255, 255, 255, 255⟩

def inverted : Pixel := ⟨255, 255, 255, 255⟩

def transparent : Pixel := ⟨0, 0, 0, 0⟩

/-- `DXGI_OUTDUPL_POINTER_SHAPE_TYPE`. -/
inductive ShapeType where
  | monochrome
  | color
  | maskedColor
  /-- a value that is none of these -/
  | invalid
  deriving DecidableEq

/-- `DXGI_OUTDUPL_POINTER_SHAPE_INFO`, with the buffer that `GetFramePointerShape` fills. -/
structure PointerShape where
  type : ShapeType
  width : ℕ
  height : ℕ
  pitch : ℕ
  data : List UInt8
  deriving DecidableEq

/-- Arithmetic of `UINT`. -/
def uint (n : ℕ) : ℕ := n % 2 ^ 32

/-- The bytes, four at a time; there is no answer if some are left. -/
def pixelsOf : List UInt8 → Option (List Pixel)
  | [] => some []
  | b :: g :: r :: a :: rest => (pixelsOf rest).map fun pixels => ⟨b, g, r, a⟩ :: pixels
  | _ => none

/-- `color_type`: the bits of the AND mask and of the XOR mask. -/
def colorType (andMask xorMask : UInt8) (c : ℕ) : ℕ :=
  (if andMask.toNat.testBit c then 1 else 0) + if xorMask.toNat.testBit c then 2 else 0

/-- The inner loop: the bits `c - 1`, …, `0` of one byte of each mask, until the image is full.  The image is what is
drawn already, in front of its other pixels. -/
def drawByte (color : ℕ → Pixel) (andMask xorMask : Option UInt8) (size : ℕ) : ℕ → List Pixel → Option (List Pixel)
  | 0, image => some image
  | c + 1, image =>
    if image.length = size then some image else
      andMask.bind fun andMask => xorMask.bind fun xorMask =>
        drawByte color andMask xorMask size c (image ++ [color (colorType andMask xorMask c)])

/-- The outer loop, over the first `n` bytes of the masks, of which there are `bytes` each. -/
def drawMasks (color : ℕ → Pixel) (data : List UInt8) (bytes size : ℕ) : ℕ → Option (List Pixel)
  | 0 => some []
  | n + 1 => (drawMasks color data bytes size n).bind (drawByte color data[n]? data[n + bytes]? size 8)

/-- What both functions do with a monochrome pointer.  What is not drawn stays zero. -/
def monochromeImage (color : ℕ → Pixel) (shape : PointerShape) : Option (List Pixel) :=
  let height := shape.height / 2
  let size := uint (shape.width * height * 4) / 4
  let bytes := uint (shape.pitch * height)
  (drawMasks color shape.data bytes size bytes).map fun image =>
    image ++ List.replicate (size - image.length) transparent

def alphaColor : ℕ → Pixel
  | 0 => black
  | 2 => white
  | _ => transparent

def xorColor : ℕ → Pixel
  | 3 => inverted
  | _ => transparent

/-- What the two functions do with a pixel of a masked colour pointer. -/
def maskedAlpha (pixel : Pixel) : Pixel :=
  if pixel.a = 255 then transparent else if pixel.a = 0 then { pixel with a := 255 } else pixel

def maskedXor (pixel : Pixel) : Pixel :=
  if pixel.a = 255 then pixel else if pixel.a = 0 then transparent else pixel

/-- `make_cursor_alpha_image`. -/
def makeCursorAlphaImage (shape : PointerShape) : Option (List Pixel) :=
  match shape.type with
  | .maskedColor => (pixelsOf shape.data).map (List.map maskedAlpha)
  | .color => pixelsOf shape.data
  | .monochrome => monochromeImage alphaColor shape
  | .invalid => some []

/-- `make_cursor_xor_image`. -/
def makeCursorXorImage (shape : PointerShape) : Option (List Pixel) :=
  match shape.type with
  | .maskedColor => (pixelsOf shape.data).map (List.map maskedXor)
  | .color => some []
  | .monochrome => monochromeImage xorColor shape
  | .invalid => some []

/-! ### `gpu_cursor_t` -/

/-- `DXGI_MODE_ROTATION`. -/
inductive Rotation where
  | unspecified
  | identity
  | rotate90
  | rotate180
  | rotate270
  deriving DecidableEq

/-- The rectangle that the cursor is drawn into. -/
structure Viewport where
  topLeftX : ℤ := 0
  topLeftY : ℤ := 0
  width : ℤ := 0
  height : ℤ := 0
  deriving DecidableEq

structure CursorTexture where
  width : ℕ
  height : ℕ
  pixels : List Pixel
  deriving DecidableEq

/-- `gpu_cursor_t`. -/
structure GpuCursor where
  texture : Option CursorTexture := none
  textureWidth : ℤ := 0
  textureHeight : ℤ := 0
  topleftX : ℤ := 0
  topleftY : ℤ := 0
  displayWidth : ℤ := 0
  displayHeight : ℤ := 0
  displayRotation : Rotation := .unspecified
  /-- the texture that the shader reads -/
  inputRes : Option CursorTexture := none
  cursorView : Viewport := {}
  visible : Bool := false
  deriving DecidableEq

namespace GpuCursor

/-- `update_viewport`. -/
def updateViewport (s : GpuCursor) : GpuCursor :=
  match s.displayRotation with
  | .unspecified | .identity =>
    { s with cursorView := ⟨s.topleftX, s.topleftY, s.textureWidth, s.textureHeight⟩ }
  | .rotate90 =>
    { s with cursorView :=
        ⟨s.topleftY, s.displayWidth - s.textureWidth - s.topleftX, s.textureHeight, s.textureWidth⟩ }
  | .rotate180 =>
    { s with cursorView :=
        ⟨s.displayWidth - s.textureWidth - s.topleftX, s.displayHeight - s.textureHeight - s.topleftY,
          s.textureWidth, s.textureHeight⟩ }
  | .rotate270 =>
    { s with cursorView :=
        ⟨s.displayHeight - s.textureHeight - s.topleftY, s.topleftX, s.textureHeight, s.textureWidth⟩ }

/-- `set_pos`. -/
def setPos (s : GpuCursor) (x y displayWidth displayHeight : ℤ) (rotation : Rotation) (visible : Bool) : GpuCursor :=
  updateViewport { s with
    topleftX := x
    topleftY := y
    displayWidth
    displayHeight
    displayRotation := rotation
    visible }

/-- `set_texture`. -/
def setTexture (s : GpuCursor) (textureWidth textureHeight : ℤ) (texture : Option CursorTexture) : GpuCursor :=
  updateViewport { s with texture, textureWidth, textureHeight }

end GpuCursor

/-! ### What the images do to a pixel of the frame -/

/-- The factors of a blend state. -/
inductive BlendFactor where
  | srcAlpha
  | invSrcAlpha
  | invDestColor
  | invSrcColor
  deriving DecidableEq

def BlendFactor.value (f : BlendFactor) (alpha src dest : ℚ) : ℚ :=
  match f with
  | .srcAlpha => alpha
  | .invSrcAlpha => 1 - alpha
  | .invDestColor => 1 - dest
  | .invSrcColor => 1 - src

/-- `make_blend`: `SrcBlend` and `DestBlend`. -/
def makeBlend (invert : Bool) : BlendFactor × BlendFactor :=
  if invert then (.invDestColor, .invSrcColor) else (.srcAlpha, .invSrcAlpha)

/-- A colour between 0 and 1. -/
def unorm (c : UInt8) : ℚ := c.toNat / 255

/-- `D3D11_BLEND_OP_ADD`. -/
def blendColor (invert : Bool) (alpha src dest : ℚ) : ℚ :=
  src * (makeBlend invert).1.value alpha src dest + dest * (makeBlend invert).2.value alpha src dest

/-- The two draws of `blend_cursor`: the pixel of the alpha image, then the one of the XOR image. -/
def blendBoth (color : Pixel → UInt8) (p q : Pixel) (dest : ℚ) : ℚ :=
  blendColor true (unorm q.a) (unorm (color q)) (blendColor false (unorm p.a) (unorm (color p)) dest)

/-- A pixel of `blend_cursor_monochrome` (display_ram.cpp). -/
def applyMonochrome (andBit xorBit : Bool) (dest : UInt8) : UInt8 :=
  (dest &&& if andBit then 255 else 0) ^^^ if xorBit then 255 else 0

/-- `apply_color_masked` (display_ram.cpp), for one colour. -/
def applyColorMasked (pixel : Pixel) (color : Pixel → UInt8) (dest : UInt8) : UInt8 :=
  if pixel.a = 255 then dest ^^^ color pixel else color pixel

theorem unorm_zero : unorm 0 = 0 := by
  unfold unorm
  norm_num

theorem unorm_max : unorm 255 = 1 := by
  have hmax : (255 : UInt8).toNat = 255 := rfl
  unfold unorm
  rw [hmax]
  norm_num

theorem blendColor_alpha (alpha src dest : ℚ) : blendColor false alpha src dest = src * alpha + dest * (1 - alpha) :=
  rfl

theorem blendColor_invert (alpha src dest : ℚ) : blendColor true alpha src dest = src * (1 - dest) + dest * (1 - src) :=
  rfl

theorem unorm_invert (d : UInt8) : unorm (d ^^^ 255) = 1 - unorm d := by
  have hall : ∀ n < 256, (UInt8.ofNat n ^^^ 255).toNat + (UInt8.ofNat n).toNat = 255 := by decide +kernel
  have hxor := hall d.toNat d.toNat_lt
  rw [UInt8.ofNat_toNat] at hxor
  have hd : ((d ^^^ 255).toNat : ℚ) = 255 - d.toNat := by
    rw [eq_sub_iff_add_eq]
    exact_mod_cast hxor
  unfold unorm
  rw [hd]
  ring

theorem blendColor_invert_unorm {s : UInt8} (hs : s = 0 ∨ s = 255) (alpha : ℚ) (d : UInt8) :
    blendColor true alpha (unorm s) (unorm d) = unorm (d ^^^ s) := by
  rw [blendColor_invert]
  rcases hs with rfl | rfl
  · rw [unorm_zero, UInt8.xor_zero]
    ring
  · rw [unorm_max, unorm_invert]
    ring

theorem blendColor_opaque (src dest : ℚ) : blendColor false (unorm 255) src dest = src := by
  rw [blendColor_alpha, unorm_max]
  ring

theorem blendColor_transparent (src dest : ℚ) : blendColor false (unorm 0) src dest = dest := by
  rw [blendColor_alpha, unorm_zero]
  ring

section Monochrome

variable {color : ℕ → Pixel} {a x : UInt8} {size n : ℕ} {data : List UInt8} {bytes : ℕ}

/-- One byte of each mask draws eight pixels, or as many as are missing. -/
theorem drawByte_eq {image : List Pixel} (h : image.length ≤ size) : drawByte color (some a) (some x) size n image =
    some (image ++ ((List.range n).map fun k => color (colorType a x (n - 1 - k))).take (size - image.length)) := by
  induction n generalizing image with
  | zero => simp [drawByte]
  | succ c ih =>
    unfold drawByte
    by_cases hfull : image.length = size
    · rw [if_pos hfull, hfull, Nat.sub_self, List.take_zero, List.append_nil]
    · have hlength : (image ++ [color (colorType a x c)]).length ≤ size := by
        rw [List.length_append, List.length_singleton]
        omega
      rw [if_neg hfull, Option.bind_some, Option.bind_some, ih hlength, List.append_assoc, List.range_succ_eq_map,
        List.map_cons, List.map_map]
      have hleft : size - image.length = (size - (image ++ [color (colorType a x c)]).length) + 1 := by
        rw [List.length_append, List.length_singleton]
        omega
      have hbits : ((fun k => color (colorType a x (c + 1 - 1 - k))) ∘ Nat.succ) =
          fun k => color (colorType a x (c - 1 - k)) := by
        funext k
        show color (colorType a x (c + 1 - 1 - (k + 1))) = _
        rw [show c + 1 - 1 - (k + 1) = c - 1 - k by omega]
      rw [hleft, List.take_succ_cons, hbits]
      rfl

/-- The masks' bits at a pixel of the image. -/
def maskType (data : List UInt8) (bytes i : ℕ) : ℕ :=
  colorType (data.getD (i / 8) 0) (data.getD (i / 8 + bytes) 0) (7 - i % 8)

/-- The first `n` bytes draw the first `8 * n` pixels, or all. -/
theorem drawMasks_eq (hdata : data.length = 2 * bytes) (hn : n ≤ bytes) : drawMasks color data bytes size n =
    some (((List.range (8 * n)).map fun i => color (maskType data bytes i)).take size) := by
  induction n with
  | zero => simp [drawMasks]
  | succ n ih =>
    have hand : data[n]? = some (data.getD n 0) := by
      rw [List.getD_eq_getElem?_getD, List.getElem?_eq_getElem (by omega)]
      rfl
    have hxor : data[n + bytes]? = some (data.getD (n + bytes) 0) := by
      rw [List.getD_eq_getElem?_getD, List.getElem?_eq_getElem (by omega)]
      rfl
    have hlength : (((List.range (8 * n)).map fun i => color (maskType data bytes i)).take size).length ≤ size := by
      rw [List.length_take]
      exact Nat.min_le_left _ _
    have hbyte : ((List.range 8).map fun k => color (maskType data bytes (8 * n + k))) =
        (List.range 8).map fun k => color (colorType (data.getD n 0) (data.getD (n + bytes) 0) (8 - 1 - k)) := by
      apply List.map_congr_left
      intro k hk
      rw [List.mem_range] at hk
      unfold maskType
      rw [show (8 * n + k) / 8 = n by omega, show 7 - (8 * n + k) % 8 = 8 - 1 - k by omega]
    rw [drawMasks, ih (by omega), Option.bind_some, hand, hxor, drawByte_eq hlength, ← hbyte, Nat.mul_add, Nat.mul_one,
      List.range_add, List.map_append, List.map_map, List.take_append, List.length_take, List.length_map,
      List.length_range]
    congr 3
    omega

/-- The two masks of a monochrome pointer, without padding. -/
structure PointerShape.Monochrome (shape : PointerShape) : Prop where
  type : shape.type = .monochrome
  width : shape.width = 8 * shape.pitch
  data : shape.data.length = 2 * (shape.pitch * (shape.height / 2))
  /-- the image can be addressed -/
  small : shape.width * (shape.height / 2) * 4 < 2 ^ 32

theorem monochromeImage_eq {shape : PointerShape} (h : shape.Monochrome) (color : ℕ → Pixel) :
    monochromeImage color shape = some ((List.range (shape.width * (shape.height / 2))).map fun i =>
      color (maskType shape.data (shape.pitch * (shape.height / 2)) i)) := by
  have hsize : shape.width * (shape.height / 2) = 8 * (shape.pitch * (shape.height / 2)) := by
    rw [h.width, Nat.mul_assoc]
  have hsmall := h.small
  unfold monochromeImage uint
  simp only
  rw [Nat.mod_eq_of_lt hsmall, Nat.mod_eq_of_lt (by omega), drawMasks_eq h.data (Nat.le_refl _), Option.map_some,
    Nat.mul_div_cancel _ (by omega), ← hsize, List.take_of_length_le (by simp)]
  simp

/-- Its bits at a place. -/
def PointerShape.andBit (shape : PointerShape) (row col : ℕ) : Bool :=
  (shape.data.getD (row * shape.pitch + col / 8) 0).toNat.testBit (7 - col % 8)

def PointerShape.xorBit (shape : PointerShape) (row col : ℕ) : Bool :=
  (shape.data.getD ((row + shape.height / 2) * shape.pitch + col / 8) 0).toNat.testBit (7 - col % 8)

theorem maskType_eq {shape : PointerShape} (h : shape.width = 8 * shape.pitch) (row col : ℕ) :
    maskType shape.data (shape.pitch * (shape.height / 2)) (row * shape.width + col) =
      (if shape.andBit row col then 1 else 0) + if shape.xorBit row col then 2 else 0 := by
  have hrow : row * shape.width = 8 * (row * shape.pitch) := by
    rw [h]
    ring
  have hbyte : (row * shape.width + col) / 8 = row * shape.pitch + col / 8 := by omega
  have hbit : (row * shape.width + col) % 8 = col % 8 := by omega
  have hxor : row * shape.pitch + col / 8 + shape.pitch * (shape.height / 2) =
      (row + shape.height / 2) * shape.pitch + col / 8 := by ring
  unfold maskType colorType PointerShape.andBit PointerShape.xorBit
  rw [hbyte, hbit, hxor]

/-- The alpha image makes a pixel black or white, and the XOR image inverts it, or neither does anything. -/
theorem blendBoth_monochrome (andBit xorBit : Bool) {color : Pixel → UInt8}
    (hcolor : color = Pixel.b ∨ color = Pixel.g ∨ color = Pixel.r) (dest : UInt8) :
    blendBoth color (alphaColor ((if andBit then 1 else 0) + if xorBit then 2 else 0))
      (xorColor ((if andBit then 1 else 0) + if xorBit then 2 else 0)) (unorm dest) =
        unorm (applyMonochrome andBit xorBit dest) := by
  have hblack : color black = 0 := by rcases hcolor with rfl | rfl | rfl <;> rfl
  have hwhite : color white = 255 := by rcases hcolor with rfl | rfl | rfl <;> rfl
  have hclear : color transparent = 0 := by rcases hcolor with rfl | rfl | rfl <;> rfl
  have hinverted : color inverted = 255 := by rcases hcolor with rfl | rfl | rfl <;> rfl
  have hall : dest &&& 255 = dest := UInt8.and_neg_one
  unfold blendBoth applyMonochrome
  cases andBit with
  | false =>
    cases xorBit with
    | false =>
      show blendColor true _ (unorm (color transparent)) (blendColor false (unorm 255) (unorm (color black)) _) = _
      rw [hblack, hclear, blendColor_opaque, blendColor_invert_unorm (Or.inl rfl)]
      simp
    | true =>
      show blendColor true _ (unorm (color transparent)) (blendColor false (unorm 255) (unorm (color white)) _) = _
      rw [hwhite, hclear, blendColor_opaque, blendColor_invert_unorm (Or.inl rfl)]
      simp
  | true =>
    cases xorBit with
    | false =>
      show blendColor true _ (unorm (color transparent)) (blendColor false (unorm 0) (unorm (color transparent)) _) = _
      rw [hclear, blendColor_transparent, blendColor_invert_unorm (Or.inl rfl)]
      simp [hall]
    | true =>
      show blendColor true _ (unorm (color inverted)) (blendColor false (unorm 0) (unorm (color transparent)) _) = _
      rw [hclear, hinverted, blendColor_transparent, blendColor_invert_unorm (Or.inr rfl)]
      simp [hall]

/-- **The two images of a monochrome pointer.**  Drawn one after the other they do to every pixel what the AND mask and
the XOR mask say. -/
theorem monochrome_blend {shape : PointerShape} (h : shape.Monochrome) :
    ∃ alpha xor, makeCursorAlphaImage shape = some alpha ∧ makeCursorXorImage shape = some xor ∧
      alpha.length = shape.width * (shape.height / 2) ∧ xor.length = shape.width * (shape.height / 2) ∧
      ∀ row < shape.height / 2, ∀ col < shape.width, ∃ p q, alpha[row * shape.width + col]? = some p ∧
        xor[row * shape.width + col]? = some q ∧
          ∀ color, color = Pixel.b ∨ color = Pixel.g ∨ color = Pixel.r → ∀ dest,
            blendBoth color p q (unorm dest) =
              unorm (applyMonochrome (shape.andBit row col) (shape.xorBit row col) dest) := by
  have halpha : makeCursorAlphaImage shape = monochromeImage alphaColor shape := by
    unfold makeCursorAlphaImage
    rw [h.type]
  have hxor : makeCursorXorImage shape = monochromeImage xorColor shape := by
    unfold makeCursorXorImage
    rw [h.type]
  rw [monochromeImage_eq h] at halpha hxor
  refine ⟨_, _, halpha, hxor, by simp, by simp, fun row hrow col hcol => ?_⟩
  have hmul := Nat.mul_le_mul_right shape.width (show row + 1 ≤ shape.height / 2 from hrow)
  rw [Nat.add_mul, Nat.one_mul, Nat.mul_comm (shape.height / 2)] at hmul
  have hpixel : ∀ color : ℕ → Pixel, ((List.range (shape.width * (shape.height / 2))).map fun i =>
      color (maskType shape.data (shape.pitch * (shape.height / 2)) i))[row * shape.width + col]? =
        some (color ((if shape.andBit row col then 1 else 0) + if shape.xorBit row col then 2 else 0)) := by
    intro color
    rw [← maskType_eq h.width, List.getElem?_map, List.getElem?_range (by omega)]
    rfl
  exact ⟨_, _, hpixel alphaColor, hpixel xorColor, fun color hcolor dest => blendBoth_monochrome _ _ hcolor dest⟩

end Monochrome

/-- One row of eight pixels: black, white, the frame and its inverse, twice each. -/
def stripes : PointerShape := ⟨.monochrome, 8, 2, 1, [0x0F, 0x33]⟩

theorem monochrome_blend_stripes : ∃ alpha xor : List Pixel, makeCursorAlphaImage stripes = some alpha ∧
    makeCursorXorImage stripes = some xor ∧ ∃ p q, alpha[6]? = some p ∧ xor[6]? = some q ∧
      ∀ dest, blendBoth Pixel.g p q (unorm dest) = unorm (applyMonochrome true true dest) := by
  have hstripes : stripes.Monochrome := by constructor <;> decide
  obtain ⟨alpha, xor, halpha, hxor, -, -, hpixels⟩ := monochrome_blend hstripes
  obtain ⟨p, q, hp, hq, hblend⟩ := hpixels 0 (by decide) 6 (by decide)
  exact ⟨alpha, xor, halpha, hxor, p, q, hp, hq, fun dest => hblend Pixel.g (Or.inr (Or.inl rfl)) dest⟩

/-- The two images of a masked colour pointer, where its pixels are legal and those to invert with are all or none. -/
theorem maskedColor_blend {shape : PointerShape} (htype : shape.type = .maskedColor) {pixels : List Pixel}
    (hpixels : pixelsOf shape.data = some pixels) : ∃ alpha xor : List Pixel, makeCursorAlphaImage shape = some alpha ∧
      makeCursorXorImage shape = some xor ∧ ∀ (i : ℕ) pixel, pixels[i]? = some pixel → ∃ p q, alpha[i]? = some p ∧
        xor[i]? = some q ∧ ∀ color, color = Pixel.b ∨ color = Pixel.g ∨ color = Pixel.r →
          pixel.a = 0 ∨ pixel.a = 255 ∧ (color pixel = 0 ∨ color pixel = 255) → ∀ dest,
            blendBoth color p q (unorm dest) = unorm (applyColorMasked pixel color dest) := by
  unfold makeCursorAlphaImage makeCursorXorImage
  rw [htype, hpixels]
  refine ⟨_, _, rfl, rfl, fun i pixel hi => ⟨maskedAlpha pixel, maskedXor pixel, by rw [List.getElem?_map, hi]; rfl,
    by rw [List.getElem?_map, hi]; rfl, fun color hcolor hlegal dest => ?_⟩⟩
  have hclear : color transparent = 0 := by rcases hcolor with rfl | rfl | rfl <;> rfl
  unfold blendBoth applyColorMasked maskedAlpha maskedXor
  rcases hlegal with ha | ⟨ha, hall⟩
  · have hopaque : color { pixel with a := 255 } = color pixel := by rcases hcolor with rfl | rfl | rfl <;> rfl
    have hne : ¬pixel.a = 255 := by
      rw [ha]
      decide
    rw [if_neg hne, if_neg hne, if_pos ha, if_pos ha, if_neg hne, hclear, hopaque, blendColor_opaque,
      blendColor_invert_unorm (Or.inl rfl), UInt8.xor_zero]
  · have hzero : unorm transparent.a = unorm 0 := rfl
    rw [if_pos ha, if_pos ha, if_pos ha, hzero, blendColor_transparent, blendColor_invert_unorm hall]

/-! ### Shapes that can be read -/

/-- The buffer holds what the type says. -/
def PointerShape.Complete (shape : PointerShape) : Prop :=
  (shape.type = .monochrome → shape.data.length = 2 * (shape.pitch * (shape.height / 2)) ∧
    shape.pitch * (shape.height / 2) < 2 ^ 32) ∧
  (shape.type = .color ∨ shape.type = .maskedColor → shape.data.length % 4 = 0 ∧ shape.width ≠ 0)

instance (shape : PointerShape) : Decidable shape.Complete := inferInstanceAs (Decidable (_ ∧ _))

theorem exists_pixelsOf {data : List UInt8} (h : data.length % 4 = 0) : ∃ pixels, pixelsOf data = some pixels := by
  induction data using pixelsOf.induct with
  | case1 => exact ⟨[], rfl⟩
  | case2 b g r a rest ih =>
    simp only [List.length_cons] at h
    obtain ⟨pixels, hpixels⟩ := ih (by omega)
    exact ⟨_, by rw [pixelsOf, hpixels]; rfl⟩
  | case3 data hne hmore =>
    match data, hne, hmore, h with
    | [], hne, _, _ => exact absurd rfl hne
    | [_], _, _, h => simp at h
    | [_, _], _, _, h => simp at h
    | [_, _, _], _, _, h => simp at h
    | b :: g :: r :: a :: rest, _, hmore, _ => exact absurd rfl (hmore b g r a rest)

/-- Both images can be made, and a texture of them. -/
theorem PointerShape.Complete.images {shape : PointerShape} (h : shape.Complete) :
    ∃ alpha xor, makeCursorAlphaImage shape = some alpha ∧ makeCursorXorImage shape = some xor ∧
      (shape.width = 0 → alpha = [] ∧ xor = []) := by
  unfold makeCursorAlphaImage makeCursorXorImage
  cases htype : shape.type with
  | monochrome =>
    obtain ⟨hdata, hsmall⟩ := h.1 htype
    have himage : ∀ color, ∃ image, monochromeImage color shape = some image ∧ (shape.width = 0 → image = []) := by
      intro color
      unfold monochromeImage
      simp only
      rw [uint, uint, Nat.mod_eq_of_lt hsmall, drawMasks_eq hdata (Nat.le_refl _)]
      exact ⟨_, rfl, fun hzero => by simp [hzero]⟩
    obtain ⟨alpha, halpha, hnil⟩ := himage alphaColor
    obtain ⟨xor, hxor, hnil'⟩ := himage xorColor
    exact ⟨alpha, xor, halpha, hxor, fun hzero => ⟨hnil hzero, hnil' hzero⟩⟩
  | color =>
    obtain ⟨hdata, hwidth⟩ := h.2 (Or.inl htype)
    obtain ⟨pixels, hpixels⟩ := exists_pixelsOf hdata
    exact ⟨pixels, [], hpixels, rfl, fun hzero => absurd hzero hwidth⟩
  | maskedColor =>
    obtain ⟨hdata, hwidth⟩ := h.2 (Or.inr htype)
    obtain ⟨pixels, hpixels⟩ := exists_pixelsOf hdata
    exact ⟨_, _, by rw [hpixels]; rfl, by rw [hpixels]; rfl, fun hzero => absurd hzero hwidth⟩
  | invalid => exact ⟨[], [], rfl, rfl, fun _ => ⟨rfl, rfl⟩⟩

end MidnightSun.Platf.Dxgi
