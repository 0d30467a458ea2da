import Mathlib.Order.Lattice
import Mathlib.Tactic.Ring
import MidnightSun.Lib.Raster
import MidnightSun.Lib.Run

/-!
# The cursor of a captured display (src/platform/linux/kmsgrab.cpp, `update_cursor`, `blend_cursor`)

The hardware cursor is a plane of its own, so it is missing from the captured image.  `update_cursor` keeps a copy of
the rectangle of the framebuffer that the cursor plane shows, and `blend_cursor` draws it into the image.

* `blend_cursor_pixels`: which pixels of the image are drawn over, and with what;
* `update_cursor_shows`: over all updates, the copy of a visible cursor is what the plane shows, and nothing beyond the
  framebuffer is read.
-/

namespace MidnightSun.Platf.Kms

open Lib Lib.Raster

/-! ### Drawing -/

/-- Conversions to `int32_t` and `uint32_t`. -/
def toI32 (x : ℤ) : ℤ := Int.bmod x (2 ^ 32)

def toU32 (x : ℤ) : ℕ := (x % 2 ^ 32).toNat

/-- One component of a pixel under a cursor pixel. -/
def blendComponent (cursor old alpha : UInt8) : UInt8 :=
  cursor + UInt8.ofNat ((old.toNat * (255 - alpha.toNat) + 255 / 2) / 255)

def blendPixel (cursor old : Pixel) : Pixel :=
  if cursor.a = 255 then cursor
  else
    { old with
      b := blendComponent cursor.b old.b cursor.a
      g := blendComponent cursor.g old.g cursor.a
      r := blendComponent cursor.r old.r cursor.a }

/-- The pixel in four bytes from the offset on. -/
def pixelAt (bytes : List UInt8) (offset : ℕ) : Option Pixel :=
  match Buffer.read bytes offset 4 with
  | [b, g, r, a] => some ⟨b, g, r, a⟩
  | _ => none

/-- `img_t`. -/
structure Img where
  width : ℕ
  height : ℕ
  pixelPitch : ℕ
  rowPitch : ℕ
  data : List Pixel

/-- `cursor_t`. -/
structure CapturedCursor where
  visible : Bool := false
  x : ℤ := 0
  y : ℤ := 0
  dstW : ℕ := 0
  dstH : ℕ := 0
  srcW : ℕ := 0
  srcH : ℕ := 0
  pixels : List UInt8 := []
  serial : ℕ := 0
  propSrcX : ℕ := 0
  propSrcY : ℕ := 0
  propSrcW : ℕ := 0
  propSrcH : ℕ := 0
  fbId : ℕ := 0
  deriving DecidableEq

/-- One of the two directions of `blend_cursor`: where the cursor begins on the screen, how much of the cursor is
skipped, and how much of it is drawn. -/
structure Span where
  start : ℤ
  delta : ℤ
  count : ℕ

/-- `position` is `captured_cursor.x - img_offset_x`, or the same for `y`. -/
def span (position : ℤ) (src screen : ℕ) : Span :=
  let start := max 0 position
  let delta := start - max (toI32 (-src)) position
  { start
    delta
    count := toU32 ((min src (toU32 (max 0 (screen - start))) : ℕ) - delta) }

/-- `blend_cursor`.  It fails if it leaves the cursor image or the screen. -/
def blendCursor (cursor : CapturedCursor) (offsetX offsetY : ℤ) (img : Img) : Option Img :=
  let h := span (toI32 (cursor.x - offsetX)) cursor.srcW img.width
  let v := span (toI32 (cursor.y - offsetY)) cursor.srcH img.height
  let cursorBegin (y : ℕ) : ℕ := toU32 (((y + v.delta) * cursor.srcW + h.delta) * 4)
  let cursorEnd (y : ℕ) : ℕ := toU32 (((y + v.delta) * cursor.srcW + h.count + h.delta) * 4)
  (Raster.updateRows
    (fun y k old => (pixelAt cursor.pixels (cursorBegin y + k * 4)).map fun pixel => blendPixel pixel old)
    (fun y => ((y + v.start) * (img.rowPitch / img.pixelPitch : ℕ) + h.start).toNat)
    (fun y => if cursorBegin y ≤ cursorEnd y then some ((cursorEnd y - cursorBegin y) / 4) else none)
    v.count img.data).map fun data => { img with data }

theorem toI32_of_range {x : ℤ} (hlow : -2 ^ 31 ≤ x) (hhigh : x < 2 ^ 31) : toI32 x = x := by
  unfold toI32
  rw [Int.bmod_def]
  split <;> omega

theorem toU32_of_range {x : ℤ} (hlow : 0 ≤ x) (hhigh : x < 2 ^ 32) : toU32 x = x.toNat := by
  unfold toU32
  rw [Int.emod_eq_of_lt hlow hhigh]

/-- Colours that do not exceed the opacity do not wrap around. -/
theorem blendComponent_toNat {cursor old alpha : UInt8} (h : cursor ≤ alpha) :
    (blendComponent cursor old alpha).toNat =
      cursor.toNat + (old.toNat * (255 - alpha.toNat) + 255 / 2) / 255 := by
  have hle : cursor.toNat ≤ alpha.toNat := h
  have halpha := alpha.toNat_lt
  have hold := old.toNat_lt
  have hmul : old.toNat * (255 - alpha.toNat) ≤ 255 * (255 - alpha.toNat) := Nat.mul_le_mul_right _ (by omega)
  unfold blendComponent
  rw [UInt8.toNat_add, UInt8.toNat_ofNat']
  omega

/-- What a span covers: the part of the cursor that is on the screen. -/
theorem span_spec {position : ℤ} {src screen : ℕ} (hlow : -2 ^ 31 ≤ position) (hhigh : position < 2 ^ 31)
    (hsrc : src < 2 ^ 31) (hscreen : screen < 2 ^ 31) (hfits : src ≤ screen ∨ 0 ≤ position) :
    ∃ s d : ℕ, (span position src screen).start = s ∧ (span position src screen).delta = d ∧
      d + (span position src screen).count ≤ src ∧
      ((span position src screen).count = 0 ∨ s + (span position src screen).count ≤ screen) ∧
      ∀ c < screen, (s ≤ c ∧ c < s + (span position src screen).count ↔ position ≤ c ∧ c < position + src) ∧
        (s ≤ c → c < s + (span position src screen).count → (c : ℤ) - position = (c - s : ℕ) + d) := by
  have hneg : toI32 (-src) = -src := toI32_of_range (by omega) (by omega)
  have hwidth : toU32 (max 0 (screen - max 0 position)) = (max 0 (screen - max 0 position)).toNat :=
    toU32_of_range (by omega) (by omega)
  have hcount : (span position src screen).count =
      (((min src (max 0 (screen - max 0 position)).toNat : ℕ) : ℤ) -
        (max 0 position - max (-(src : ℤ)) position)).toNat := by
    unfold span
    simp only [hneg, hwidth]
    exact toU32_of_range (by omega) (by omega)
  have hdelta : (span position src screen).delta = max 0 position - max (-(src : ℤ)) position := by
    unfold span
    simp only [hneg]
  refine ⟨(max 0 position).toNat, (max 0 position - max (-(src : ℤ)) position).toNat, ?_, ?_, ?_, ?_, ?_⟩
  · show max 0 position = _
    omega
  · rw [hdelta]
    omega
  · rw [hcount]
    omega
  · rw [hcount]
    omega
  · intro c hc
    rw [hcount]
    constructor <;> omega

/-- A cursor and an image from `alloc_img`.  The cursor is not off the left or the upper edge, or it is no larger than
the screen. -/
structure Drawable (cursor : CapturedCursor) (offsetX offsetY : ℤ) (img : Img) : Prop where
  pixelPitch : img.pixelPitch = 4
  rowPitch : img.rowPitch = 4 * img.width
  data : img.data.length = img.height * img.width
  width : img.width < 2 ^ 31
  height : img.height < 2 ^ 31
  pixels : cursor.pixels.length = cursor.srcH * (cursor.srcW * 4)
  small : cursor.pixels.length < 2 ^ 32
  srcW : cursor.srcW < 2 ^ 31
  srcH : cursor.srcH < 2 ^ 31
  x : -2 ^ 31 ≤ cursor.x - offsetX ∧ cursor.x - offsetX < 2 ^ 31
  y : -2 ^ 31 ≤ cursor.y - offsetY ∧ cursor.y - offsetY < 2 ^ 31
  left : cursor.srcW ≤ img.width ∨ 0 ≤ cursor.x - offsetX
  top : cursor.srcH ≤ img.height ∨ 0 ≤ cursor.y - offsetY

/-- The pixel of the cursor in this row and column. -/
def CapturedCursor.pixel (cursor : CapturedCursor) (row col : ℕ) : Option Pixel :=
  pixelAt cursor.pixels (row * (cursor.srcW * 4) + col * 4)

theorem CapturedCursor.exists_pixel {cursor : CapturedCursor} (row col : ℕ)
    (hpixels : cursor.pixels.length = cursor.srcH * (cursor.srcW * 4)) (hrow : row < cursor.srcH)
    (hcol : col < cursor.srcW) : ∃ pixel, cursor.pixel row col = some pixel := by
  have hmul := Nat.mul_le_mul_right (cursor.srcW * 4) (show row + 1 ≤ cursor.srcH from hrow)
  rw [Nat.add_mul, Nat.one_mul] at hmul
  have hlength : (Buffer.read cursor.pixels (row * (cursor.srcW * 4) + col * 4) 4).length = 4 :=
    Raster.length_read (by omega)
  unfold pixel pixelAt
  match hread : Buffer.read cursor.pixels (row * (cursor.srcW * 4) + col * 4) 4, hlength with
  | [b, g, r, a], _ => exact ⟨⟨b, g, r, a⟩, rfl⟩

/-- Where `blend_cursor` begins to read a row of the cursor. -/
theorem rowOffset {cursor : CapturedCursor} {dy dx y k : ℕ} (hsmall : cursor.pixels.length < 2 ^ 32)
    (hpixels : cursor.pixels.length = cursor.srcH * (cursor.srcW * 4)) (hy : y + dy < cursor.srcH)
    (hk : k + dx ≤ cursor.srcW) :
    toU32 ((((y : ℤ) + dy) * cursor.srcW + k + dx) * 4) = (y + dy) * (cursor.srcW * 4) + (k + dx) * 4 := by
  have hmul := Nat.mul_le_mul_right (cursor.srcW * 4) (show y + dy + 1 ≤ cursor.srcH from hy)
  rw [Nat.add_mul, Nat.one_mul, ← hpixels] at hmul
  have hcast : (((y : ℤ) + dy) * cursor.srcW + k + dx) * 4 =
      (((y + dy) * (cursor.srcW * 4) + (k + dx) * 4 : ℕ) : ℤ) := by
    push_cast
    ring
  rw [hcast, toU32_of_range (by omega) (by omega), Int.toNat_natCast]

/-- **The cursor is drawn where it is.**  For a cursor that is no larger than the screen where it is off the left or the
upper edge, `blend_cursor` stays within the cursor image and the screen; a pixel of the screen that the cursor covers is
blended with the cursor's pixel there, and the others stay. -/
theorem blend_cursor_pixels {cursor : CapturedCursor} {offsetX offsetY : ℤ} {img : Img}
    (h : Drawable cursor offsetX offsetY img) :
    ∃ data, blendCursor cursor offsetX offsetY img = some { img with data } ∧ data.length = img.data.length ∧
      ∀ row < img.height, ∀ col < img.width, data[row * img.width + col]? =
        if (cursor.y - offsetY ≤ row ∧ row < cursor.y - offsetY + cursor.srcH) ∧
            cursor.x - offsetX ≤ col ∧ col < cursor.x - offsetX + cursor.srcW then
          (cursor.pixel (row - (cursor.y - offsetY)).toNat (col - (cursor.x - offsetX)).toNat).bind fun pixel =>
            (img.data[row * img.width + col]?).map (blendPixel pixel)
        else img.data[row * img.width + col]? := by
  obtain ⟨sx, dx, hsx, hdx, hfitx, hendx, hx⟩ := span_spec h.x.1 h.x.2 h.srcW h.width h.left
  obtain ⟨sy, dy, hsy, hdy, hfity, hendy, hy⟩ := span_spec h.y.1 h.y.2 h.srcH h.height h.top
  have hstride : img.rowPitch / img.pixelPitch = img.width := by
    rw [h.pixelPitch, h.rowPitch]
    omega
  unfold blendCursor
  simp only [toI32_of_range h.x.1 h.x.2, toI32_of_range h.y.1 h.y.2, hsx, hdx, hsy, hdy, hstride]
  generalize (span (cursor.x - offsetX) cursor.srcW img.width).count = nx at *
  generalize (span (cursor.y - offsetY) cursor.srcH img.height).count = ny at *
  have hbegin : ∀ r < ny, toU32 ((((r : ℤ) + dy) * cursor.srcW + dx) * 4) =
      (r + dy) * (cursor.srcW * 4) + dx * 4 := by
    intro r hr
    have hcol : 0 + dx ≤ cursor.srcW := by omega
    have hoffset := rowOffset h.small h.pixels (show r + dy < cursor.srcH by omega) hcol
    simpa using hoffset
  have hend : ∀ r < ny, toU32 ((((r : ℤ) + dy) * cursor.srcW + nx + dx) * 4) =
      (r + dy) * (cursor.srcW * 4) + (nx + dx) * 4 := fun r hr => rowOffset h.small h.pixels (by omega) (by omega)
  have hw : ∀ r < ny, (if toU32 ((((r : ℤ) + dy) * cursor.srcW + dx) * 4) ≤
        toU32 ((((r : ℤ) + dy) * cursor.srcW + nx + dx) * 4) then
      some ((toU32 ((((r : ℤ) + dy) * cursor.srcW + nx + dx) * 4) -
        toU32 ((((r : ℤ) + dy) * cursor.srcW + dx) * 4)) / 4) else none) = some nx := by
    intro r hr
    rw [hbegin r hr, hend r hr, if_pos (by omega)]
    congr 1
    omega
  -- the pixels of the screen that are drawn over are those that the cursor covers
  have hcover : ∀ row < img.height, ∀ col < img.width,
      ((sy ≤ row ∧ row < sy + ny) ∧ sx ≤ col ∧ col < sx + nx ↔
        (cursor.y - offsetY ≤ row ∧ row < cursor.y - offsetY + cursor.srcH) ∧
          cursor.x - offsetX ≤ col ∧ col < cursor.x - offsetX + cursor.srcW) :=
    fun row hrow col hcol => and_congr (hy row hrow).1 (hx col hcol).1
  have hnothing : nx = 0 ∨ ny = 0 → ∀ row < img.height, ∀ col < img.width,
      ¬((cursor.y - offsetY ≤ row ∧ row < cursor.y - offsetY + cursor.srcH) ∧
        cursor.x - offsetX ≤ col ∧ col < cursor.x - offsetX + cursor.srcW) := by
    intro hzero row hrow col hcol hin
    have := (hcover row hrow col hcol).mpr hin
    omega
  by_cases hny : ny = 0
  · subst hny
    exact ⟨img.data, rfl, rfl, fun row hrow col hcol => by rw [if_neg (hnothing (Or.inr rfl) row hrow col hcol)]⟩
  by_cases hnx : nx = 0
  · subst hnx
    rw [Raster.updateRows_nothing hw]
    exact ⟨img.data, rfl, rfl, fun row hrow col hcol => by rw [if_neg (hnothing (Or.inl rfl) row hrow col hcol)]⟩
  have hrows := Nat.mul_le_mul_right img.width (show sy + ny ≤ img.height by omega)
  have hbase : ∀ r < ny, (((r : ℤ) + sy) * (img.width : ℕ) + sx).toNat = (sy + r) * img.width + sx := by
    intro r _
    have hcast : ((r : ℤ) + sy) * (img.width : ℕ) + sx = (((sy + r) * img.width + sx : ℕ) : ℤ) := by
      push_cast
      ring
    rw [hcast, Int.toNat_natCast]
  have hblend : ∀ r < ny, ∀ k < nx, ∀ old,
      ((pixelAt cursor.pixels (toU32 ((((r : ℤ) + dy) * cursor.srcW + dx) * 4) + k * 4)).map
        fun pixel => blendPixel pixel old) =
      some (blendPixel ((cursor.pixel (r + dy) (k + dx)).getD ⟨0, 0, 0, 0⟩) old) := by
    intro r hr k hk old
    obtain ⟨pixel, hpixel⟩ := CapturedCursor.exists_pixel (r + dy) (k + dx) h.pixels (by omega) (by omega)
    have hoffset : (r + dy) * (cursor.srcW * 4) + dx * 4 + k * 4 = (r + dy) * (cursor.srcW * 4) + (k + dx) * 4 := by
      omega
    have hread : pixelAt cursor.pixels ((r + dy) * (cursor.srcW * 4) + (k + dx) * 4) = some pixel := hpixel
    rw [hbegin r hr, hoffset, hread, hpixel]
    rfl
  obtain ⟨data, hdata, hlength, hget⟩ := Raster.updateRows_spec hbase hw hblend (by omega) (by rw [h.data]; exact hrows)
  refine ⟨data, by rw [hdata]; rfl, hlength, fun row hrow col hcol => ?_⟩
  rw [hget row col hcol]
  by_cases hin : (sy ≤ row ∧ row < sy + ny) ∧ sx ≤ col ∧ col < sx + nx
  · rw [if_pos hin, if_pos ((hcover row hrow col hcol).mp hin)]
    have hrowAt : row - sy + dy = ((row : ℤ) - (cursor.y - offsetY)).toNat := by
      have := (hy row hrow).2 hin.1.1 hin.1.2
      omega
    have hcolAt : col - sx + dx = ((col : ℤ) - (cursor.x - offsetX)).toNat := by
      have := (hx col hcol).2 hin.2.1 hin.2.2
      omega
    obtain ⟨pixel, hpixel⟩ := CapturedCursor.exists_pixel (row - sy + dy) (col - sx + dx) h.pixels (by omega) (by omega)
    rw [← hrowAt, ← hcolAt, hpixel]
    rfl
  · rw [if_neg hin, if_neg fun hin' => hin ((hcover row hrow col hcol).mpr hin')]

/-- The left half of this cursor is off the screen. -/
def arrow : CapturedCursor :=
  { visible := true, x := -1, srcW := 2, srcH := 1, pixels := [1, 2, 3, 255, 4, 5, 6, 255] }

def black : Img :=
  { width := 2, height := 1, pixelPitch := 4, rowPitch := 8, data := [⟨0, 0, 0, 0⟩, ⟨0, 0, 0, 0⟩] }

theorem blend_cursor_pixels_arrow :
    ∃ data, blendCursor arrow 0 0 black = some { black with data } ∧ data.length = 2 ∧
      data[0]? = some ⟨4, 5, 6, 255⟩ ∧ data[1]? = some ⟨0, 0, 0, 0⟩ := by
  have harrow : Drawable arrow 0 0 black := by constructor <;> decide
  obtain ⟨data, hdata, hlength, hget⟩ := blend_cursor_pixels harrow
  have hleft := hget 0 (by decide) 0 (by decide)
  have hright := hget 0 (by decide) 1 (by decide)
  rw [if_pos (by decide)] at hleft
  rw [if_neg (by decide)] at hright
  exact ⟨data, hdata, hlength, hleft.trans (by decide), hright⟩

/-! ### Keeping the copy -/

/-- The result of `card.fb`, with the memory that its first handle maps to. -/
structure Framebuffer where
  width : ℕ
  height : ℕ
  pitch : ℕ
  handle : ℕ
  /-- `DRM_FORMAT_ARGB8888` -/
  argb : Bool
  /-- `DRM_FORMAT_MOD_LINEAR` or `DRM_FORMAT_MOD_INVALID` -/
  linear : Bool
  memory : List UInt8
  deriving DecidableEq

/-- What `update_cursor` finds: the plane, its properties, if there are such, the framebuffer, and whether its handle
can be opened and mapped. -/
structure CursorPlane where
  fbId : ℕ
  crtcX : Option ℕ
  crtcY : Option ℕ
  crtcW : Option ℕ
  crtcH : Option ℕ
  srcX : Option ℕ
  srcY : Option ℕ
  srcW : Option ℕ
  srcH : Option ℕ
  fb : Option Framebuffer
  opened : Bool
  mapped : Bool

/-- `display_t`, as far as it is about the cursor. -/
structure Display where
  /-- `cursor_plane_id` is not negative -/
  hasCursorPlane : Bool := true
  capturedCursor : CapturedCursor := {}
  deriving DecidableEq

/-- The copy of a rectangle of the framebuffer: in one piece if there are no gaps, or else row by row.  It fails if it
leaves the framebuffer or the copy. -/
def copyRectangle (fb : Framebuffer) (srcX srcY srcW srcH : ℕ) (pixels : List UInt8) : Option (List UInt8) :=
  if fb.pitch = srcW * 4 ∧ srcX = 0 then Raster.memcpy pixels 0 fb.memory (srcY * fb.pitch) (srcH * fb.pitch)
  else Raster.copyRows fb.memory (fun y => (y + srcY) * fb.pitch + srcX * 4) (srcW * 4) srcH pixels

/-- `std::vector::resize`. -/
def resizePixels (pixels : List UInt8) (n : ℕ) : List UInt8 := pixels.take n ++ List.replicate (n - pixels.length) 0

namespace Display

variable (s : Display)

def hide : Display := { s with capturedCursor := { s.capturedCursor with visible := false } }

/-- The plane has no framebuffer. -/
def vanish : Display := { s with capturedCursor := { s.capturedCursor with visible := false, fbId := 0 } }

/-- The cursor is not looked for any more. -/
def giveUp : Display := { s.hide with hasCursorPlane := false }

/-- The download of a new image. -/
def download (plane : CursorPlane) (srcX srcY srcW srcH : ℕ) : Option Display :=
  match plane.fb with
  | none => some s.hide
  | some fb =>
    if fb.handle = 0 then some s.hide
    else if !fb.argb then some s.giveUp
    else if !fb.linear then some s.giveUp
    -- the properties are in Q16.16
    else if fb.width < srcX / 2 ^ 16 + srcW / 2 ^ 16 ∨ fb.height < srcY / 2 ^ 16 + srcH / 2 ^ 16 then some s.hide
    else if !plane.opened then some s.hide
    else if !plane.mapped then some s.hide
    else
      (copyRectangle fb (srcX / 2 ^ 16) (srcY / 2 ^ 16) (srcW / 2 ^ 16) (srcH / 2 ^ 16)
          (resizePixels s.capturedCursor.pixels (srcW / 2 ^ 16 * (srcH / 2 ^ 16) * 4))).map fun pixels =>
        { s with
          capturedCursor := { s.capturedCursor with
            pixels
            visible := true
            srcW := srcW / 2 ^ 16
            srcH := srcH / 2 ^ 16
            propSrcX := srcX
            propSrcY := srcY
            propSrcW := srcW
            propSrcH := srcH
            fbId := plane.fbId
            serial := s.capturedCursor.serial + 1 } }

/-- The position and the size, which are updated in any case. -/
def move (x y : ℤ) (dstW dstH : ℕ) : Display :=
  { s with capturedCursor := { s.capturedCursor with x, y, dstW, dstH } }

/-- A new image is only looked for if the plane has changed. -/
def refreshImage (plane : CursorPlane) (srcX srcY srcW srcH : ℕ) : Option Display :=
  if plane.fbId = 0 then some s.vanish
  else if plane.fbId ≠ s.capturedCursor.fbId ∨ srcX ≠ s.capturedCursor.propSrcX ∨ srcY ≠ s.capturedCursor.propSrcY ∨
      srcW ≠ s.capturedCursor.propSrcW ∨ srcH ≠ s.capturedCursor.propSrcH then
    s.download plane srcX srcY srcW srcH
  else some s

/-- `update_cursor`. -/
def updateCursor (plane : CursorPlane) : Option Display :=
  if !s.hasCursorPlane then some s
  else
    match plane.crtcX, plane.crtcY, plane.crtcW, plane.crtcH, plane.srcX, plane.srcY, plane.srcW, plane.srcH with
    | some crtcX, some crtcY, some crtcW, some crtcH, some srcX, some srcY, some srcW, some srcH =>
      (s.move (toI32 crtcX) (toI32 crtcY) (toU32 crtcW) (toU32 crtcH)).refreshImage plane srcX srcY srcW srcH
    | _, _, _, _, _, _, _, _ => some s.giveUp

theorem move_hasCursorPlane (x y : ℤ) (w k : ℕ) : (s.move x y w k).hasCursorPlane = s.hasCursorPlane := rfl

theorem move_x (x y : ℤ) (w k : ℕ) : (s.move x y w k).capturedCursor.x = x := rfl

theorem move_y (x y : ℤ) (w k : ℕ) : (s.move x y w k).capturedCursor.y = y := rfl

end Display

/-- A framebuffer whose rows fit into its pitch, and which is mapped as a whole. -/
structure Framebuffer.Valid (fb : Framebuffer) : Prop where
  pitch : fb.width * 4 ≤ fb.pitch
  memory : fb.memory.length = fb.height * fb.pitch

/-- The rectangle with these corner and sizes. -/
def Framebuffer.rectangle (fb : Framebuffer) (x y w h : ℕ) : List UInt8 :=
  Raster.rows fb.memory (fun row => (row + y) * fb.pitch + x * 4) (w * 4) h

section Rectangle

variable {fb : Framebuffer} {x y w h : ℕ}

theorem row_within (hfb : fb.Valid) (hx : x + w ≤ fb.width) (hy : y + h ≤ fb.height) (row : ℕ) (hrow : row < h) :
    (row + y) * fb.pitch + x * 4 + w * 4 ≤ fb.memory.length := by
  have hmul := Nat.mul_le_mul_right fb.pitch (show row + y + 1 ≤ fb.height by omega)
  have hpitch := hfb.pitch
  rw [Nat.add_mul, Nat.one_mul, ← hfb.memory] at hmul
  omega

/-- Both ways to copy make the same copy, and stay within the framebuffer. -/
theorem copyRectangle_eq (hfb : fb.Valid) (hx : x + w ≤ fb.width) (hy : y + h ≤ fb.height) {pixels : List UInt8}
    (hpixels : pixels.length = h * (w * 4)) : copyRectangle fb x y w h pixels = some (fb.rectangle x y w h) := by
  have hwithin := row_within hfb hx hy
  unfold copyRectangle Framebuffer.rectangle
  split
  next htight =>
    obtain ⟨hpitch, rfl⟩ := htight
    have hmul := Nat.mul_le_mul_right fb.pitch (show y + h ≤ fb.height from hy)
    rw [Nat.add_mul, ← hfb.memory] at hmul
    have hrows := Raster.rows_eq_read fb.memory (y * fb.pitch) (w * 4) h
    rw [← hpitch] at hpixels hrows ⊢
    have hread : (Buffer.read fb.memory (y * fb.pitch) (h * fb.pitch)).length = h * fb.pitch := Raster.length_read hmul
    unfold Raster.memcpy Buffer.write
    rw [if_pos ⟨by omega, hmul⟩, List.take_zero, List.nil_append, List.drop_eq_nil_of_le (by omega),
      List.append_nil, ← hrows]
    congr 1
    apply Raster.rows_congr
    intro row _
    rw [Nat.add_mul]
    omega
  next =>
    rw [Raster.copyRows_eq (by omega) hwithin, List.drop_eq_nil_of_le (by omega), List.append_nil]

theorem pixelAt_rectangle (hfb : fb.Valid) (hx : x + w ≤ fb.width) (hy : y + h ≤ fb.height) {row col : ℕ}
    (hrow : row < h) (hcol : col < w) : pixelAt (fb.rectangle x y w h) (row * (w * 4) + col * 4) =
      pixelAt fb.memory ((row + y) * fb.pitch + (x + col) * 4) := by
  have hcol' : col * 4 + 4 ≤ w * 4 := by omega
  have hread := Raster.read_rows (row_within hfb hx hy) hrow hcol'
  unfold pixelAt Framebuffer.rectangle
  rw [hread, Nat.add_assoc, ← Nat.add_mul]

end Rectangle

/-- The plane shows a framebuffer with this number, and numbers stand for the same framebuffer throughout. -/
def Faithful (fbs : ℕ → Framebuffer) (_ : Display) (plane : CursorPlane) : Prop :=
  ∀ fb ∈ plane.fb, fb = fbs plane.fbId

instance (fbs : ℕ → Framebuffer) (s : Display) (plane : CursorPlane) : Decidable (Faithful fbs s plane) :=
  inferInstanceAs (Decidable (∀ fb ∈ plane.fb, fb = fbs plane.fbId))

namespace Display

/-- The copy is the rectangle that was downloaded last. -/
structure Inv (fbs : ℕ → Framebuffer) (s : Display) : Prop where
  gone : s.hasCursorPlane = false → s.capturedCursor.visible = false
  shown : s.capturedCursor.visible = true → s.capturedCursor.fbId ≠ 0
  legal : s.capturedCursor.fbId ≠ 0 →
    s.capturedCursor.propSrcX / 2 ^ 16 + s.capturedCursor.srcW ≤ (fbs s.capturedCursor.fbId).width ∧
      s.capturedCursor.propSrcY / 2 ^ 16 + s.capturedCursor.srcH ≤ (fbs s.capturedCursor.fbId).height
  sizes : s.capturedCursor.fbId ≠ 0 →
    s.capturedCursor.srcW = s.capturedCursor.propSrcW / 2 ^ 16 ∧
      s.capturedCursor.srcH = s.capturedCursor.propSrcH / 2 ^ 16
  pixels : s.capturedCursor.fbId ≠ 0 → s.capturedCursor.pixels =
    (fbs s.capturedCursor.fbId).rectangle (s.capturedCursor.propSrcX / 2 ^ 16) (s.capturedCursor.propSrcY / 2 ^ 16)
      s.capturedCursor.srcW s.capturedCursor.srcH

/-- A visible cursor is what the plane shows, where it shows it. -/
structure Shows (fbs : ℕ → Framebuffer) (plane : CursorPlane) (cursor : CapturedCursor) : Prop where
  fbId : plane.fbId = cursor.fbId ∧ cursor.fbId ≠ 0
  position : ∃ x y, plane.crtcX = some x ∧ plane.crtcY = some y ∧ cursor.x = toI32 x ∧ cursor.y = toI32 y
  source : ∃ x y w h, plane.srcX = some x ∧ plane.srcY = some y ∧ plane.srcW = some w ∧ plane.srcH = some h ∧
    cursor.srcW = w / 2 ^ 16 ∧ cursor.srcH = h / 2 ^ 16 ∧ cursor.pixels.length = cursor.srcH * (cursor.srcW * 4) ∧
    ∀ row < cursor.srcH, ∀ col < cursor.srcW, cursor.pixel row col =
      pixelAt (fbs plane.fbId).memory ((row + y / 2 ^ 16) * (fbs plane.fbId).pitch + (x / 2 ^ 16 + col) * 4)

variable {fbs : ℕ → Framebuffer} {s t : Display} {plane : CursorPlane}

theorem Inv.hide (h : s.Inv fbs) : s.hide.Inv fbs := { h with gone := fun _ => rfl, shown := nofun }

theorem Inv.giveUp (h : s.Inv fbs) : s.giveUp.Inv fbs := { h with gone := fun _ => rfl, shown := nofun }

theorem Inv.vanish : s.vanish.Inv fbs :=
  ⟨fun _ => rfl, nofun, fun hid => absurd rfl hid, fun hid => absurd rfl hid, fun hid => absurd rfl hid⟩

theorem Inv.move (h : s.Inv fbs) (x y : ℤ) (w k : ℕ) : (s.move x y w k).Inv fbs := { h with }

/-- A download succeeds within the framebuffer, or the cursor is hidden. -/
theorem download_spec (hfbs : ∀ id, (fbs id).Valid) (h : s.Inv fbs) (hplane : s.hasCursorPlane = true)
    (hF : Faithful fbs s plane) (hid : plane.fbId ≠ 0) (srcX srcY srcW srcH : ℕ) :
    ∃ t, s.download plane srcX srcY srcW srcH = some t ∧ t.Inv fbs ∧
      t.capturedCursor.x = s.capturedCursor.x ∧ t.capturedCursor.y = s.capturedCursor.y ∧
      (t.capturedCursor.visible = true → t.capturedCursor.fbId = plane.fbId ∧ t.capturedCursor.propSrcX = srcX ∧
        t.capturedCursor.propSrcY = srcY ∧ t.capturedCursor.propSrcW = srcW ∧ t.capturedCursor.propSrcH = srcH) := by
  have hhide : ∃ t, some s.hide = some t ∧ t.Inv fbs ∧
      t.capturedCursor.x = s.capturedCursor.x ∧ t.capturedCursor.y = s.capturedCursor.y ∧
      (t.capturedCursor.visible = true → t.capturedCursor.fbId = plane.fbId ∧ t.capturedCursor.propSrcX = srcX ∧
        t.capturedCursor.propSrcY = srcY ∧ t.capturedCursor.propSrcW = srcW ∧ t.capturedCursor.propSrcH = srcH) :=
    ⟨_, rfl, h.hide, rfl, rfl, nofun⟩
  have hgiveUp : ∃ t, some s.giveUp = some t ∧ t.Inv fbs ∧
      t.capturedCursor.x = s.capturedCursor.x ∧ t.capturedCursor.y = s.capturedCursor.y ∧
      (t.capturedCursor.visible = true → t.capturedCursor.fbId = plane.fbId ∧ t.capturedCursor.propSrcX = srcX ∧
        t.capturedCursor.propSrcY = srcY ∧ t.capturedCursor.propSrcW = srcW ∧ t.capturedCursor.propSrcH = srcH) :=
    ⟨_, rfl, h.giveUp, rfl, rfl, nofun⟩
  unfold download
  cases hfb : plane.fb with
  | none => exact hhide
  | some fb =>
    simp only
    split
    · exact hhide
    split
    · exact hgiveUp
    split
    · exact hgiveUp
    split
    · exact hhide
    next hlegal =>
      split
      · exact hhide
      split
      · exact hhide
      have heq : fb = fbs plane.fbId := hF fb hfb
      have hlength : (resizePixels s.capturedCursor.pixels (srcW / 2 ^ 16 * (srcH / 2 ^ 16) * 4)).length =
          srcH / 2 ^ 16 * (srcW / 2 ^ 16 * 4) := by
        unfold resizePixels
        rw [List.length_append, List.length_take, List.length_replicate, Nat.mul_comm (srcW / 2 ^ 16), Nat.mul_assoc]
        omega
      rw [copyRectangle_eq (heq ▸ hfbs plane.fbId) (by omega) (by omega) hlength, Option.map_some]
      refine ⟨_, rfl, ⟨fun hgone => ?_, fun _ => hid, fun _ => ?_, fun _ => ⟨rfl, rfl⟩, fun _ => ?_⟩, rfl, rfl,
        fun _ => ⟨rfl, rfl, rfl, rfl, rfl⟩⟩
      · rw [hplane] at hgone
        cases hgone
      · rw [← heq]
        exact ⟨by show srcX / 2 ^ 16 + srcW / 2 ^ 16 ≤ _; omega, by show srcY / 2 ^ 16 + srcH / 2 ^ 16 ≤ _; omega⟩
      · rw [← heq]

/-- A visible copy is the part of the framebuffer that the plane shows. -/
theorem Inv.shows (hfbs : ∀ id, (fbs id).Valid) (h : t.Inv fbs) (hvisible : t.capturedCursor.visible = true)
    {x y srcX srcY srcW srcH : ℕ} (hcrtcX : plane.crtcX = some x) (hcrtcY : plane.crtcY = some y)
    (hsrcX : plane.srcX = some srcX) (hsrcY : plane.srcY = some srcY) (hsrcW : plane.srcW = some srcW)
    (hsrcH : plane.srcH = some srcH) (hx : t.capturedCursor.x = toI32 x) (hy : t.capturedCursor.y = toI32 y)
    (hsame : t.capturedCursor.fbId = plane.fbId ∧ t.capturedCursor.propSrcX = srcX ∧
      t.capturedCursor.propSrcY = srcY ∧ t.capturedCursor.propSrcW = srcW ∧ t.capturedCursor.propSrcH = srcH) :
    Shows fbs plane t.capturedCursor := by
  obtain ⟨hfbId, rfl, rfl, rfl, rfl⟩ := hsame
  have hid := h.shown hvisible
  have hlegal := h.legal hid
  have hpixels := h.pixels hid
  refine ⟨⟨hfbId.symm, hid⟩, ⟨x, y, hcrtcX, hcrtcY, hx, hy⟩,
    ⟨_, _, _, _, hsrcX, hsrcY, hsrcW, hsrcH, (h.sizes hid).1, (h.sizes hid).2, ?_, ?_⟩⟩
  · rw [hpixels]
    exact Raster.length_rows fun row hrow => row_within (hfbs _) hlegal.1 hlegal.2 row hrow
  · intro row hrow col hcol
    unfold CapturedCursor.pixel
    rw [hpixels, pixelAt_rectangle (hfbs _) hlegal.1 hlegal.2 hrow hcol, hfbId]

theorem refreshImage_spec (hfbs : ∀ id, (fbs id).Valid) (h : s.Inv fbs) (hplane : s.hasCursorPlane = true)
    (hF : Faithful fbs s plane) (srcX srcY srcW srcH : ℕ) :
    ∃ t, s.refreshImage plane srcX srcY srcW srcH = some t ∧ t.Inv fbs ∧
      (t.capturedCursor.visible = true → t.capturedCursor.x = s.capturedCursor.x ∧
        t.capturedCursor.y = s.capturedCursor.y ∧ t.capturedCursor.fbId = plane.fbId ∧
        t.capturedCursor.propSrcX = srcX ∧ t.capturedCursor.propSrcY = srcY ∧ t.capturedCursor.propSrcW = srcW ∧
        t.capturedCursor.propSrcH = srcH) := by
  unfold refreshImage
  split
  · exact ⟨_, rfl, .vanish, nofun⟩
  next hid =>
    split
    · obtain ⟨t, ht, hinv, hx, hy, hsame⟩ := download_spec hfbs h hplane hF hid srcX srcY srcW srcH
      exact ⟨t, ht, hinv, fun hvisible => ⟨hx, hy, hsame hvisible⟩⟩
    next hclean =>
      -- nothing has changed, so the last download still counts
      simp only [not_or, not_not] at hclean
      obtain ⟨hfbId, hpropX, hpropY, hpropW, hpropH⟩ := hclean
      exact ⟨s, rfl, h, fun _ =>
        ⟨rfl, rfl, hfbId.symm, hpropX.symm, hpropY.symm, hpropW.symm, hpropH.symm⟩⟩

/-- What one update does. -/
theorem updateCursor_spec (hfbs : ∀ id, (fbs id).Valid) (h : s.Inv fbs) (hF : Faithful fbs s plane) :
    ∃ t, s.updateCursor plane = some t ∧ t.Inv fbs ∧
      (t.capturedCursor.visible = true → Shows fbs plane t.capturedCursor) := by
  unfold updateCursor
  split
  next hgone =>
    have hinvisible := h.gone (by simpa using hgone)
    exact ⟨s, rfl, h, fun hvisible => by simp [hinvisible] at hvisible⟩
  next hfound =>
    split
    next x y w k srcX srcY srcW srcH hx hy _ _ hsrcX hsrcY hsrcW hsrcH =>
      obtain ⟨t, ht, hinv, hsame⟩ := refreshImage_spec hfbs (h.move (toI32 x) (toI32 y) (toU32 w) (toU32 k))
        (by rw [move_hasCursorPlane]; simpa using hfound) (fun fb hfb => hF fb hfb) srcX srcY srcW srcH
      refine ⟨t, ht, hinv, fun hvisible => ?_⟩
      obtain ⟨htx, hty, hsame⟩ := hsame hvisible
      rw [move_x] at htx
      rw [move_y] at hty
      exact hinv.shows hfbs hvisible hx hy hsrcX hsrcY hsrcW hsrcH htx hty hsame
    · exact ⟨_, rfl, h.giveUp, nofun⟩

theorem inv_init (found : Bool) : ({ hasCursorPlane := found } : Display).Inv fbs :=
  ⟨fun _ => rfl, nofun, fun hid => absurd rfl hid, fun hid => absurd rfl hid, fun hid => absurd rfl hid⟩

/-- **The copy of the cursor is not stale**, as long as a number stands for the same framebuffer throughout.  After any
updates, one more leaves neither the framebuffer nor the copy, and if the cursor is visible then, it is the part of the
framebuffer that the plane shows, at its place. -/
theorem update_cursor_shows (hfbs : ∀ id, (fbs id).Valid) {found : Bool} {planes : List CursorPlane}
    (h : Run (Guarded (ofPartial updateCursor) (Faithful fbs)) { hasCursorPlane := found } planes s)
    (hF : Faithful fbs s plane) :
    ∃ t, s.updateCursor plane = some t ∧
      (t.capturedCursor.visible = true → Shows fbs plane t.capturedCursor) := by
  have hinv : s.Inv fbs := by
    refine h.invariant_where (I := fun s => s.Inv fbs) ?_ (inv_init found)
    intro s plane t hs hG hst
    obtain ⟨t', ht', hinv, _⟩ := updateCursor_spec hfbs hs hG
    obtain rfl := Option.some.inj (hst.symm.trans ht')
    exact hinv
  obtain ⟨t, ht, _, hshows⟩ := updateCursor_spec hfbs hinv hF
  exact ⟨t, ht, hshows⟩

/-- A framebuffer of three pixels, or none. -/
def cursorFbs (id : ℕ) : Framebuffer :=
  if id = 7 then ⟨3, 1, 12, 1, true, true, [1, 2, 3, 255, 4, 5, 6, 255, 7, 8, 9, 255]⟩ else ⟨0, 0, 0, 1, true, true, []⟩

/-- The plane shows the last two pixels here. -/
def cursorPlaneAt (x : ℕ) : CursorPlane :=
  { fbId := 7, crtcX := some x, crtcY := some 0, crtcW := some 2, crtcH := some 1
    srcX := some (1 * 2 ^ 16), srcY := some 0, srcW := some (2 * 2 ^ 16), srcH := some (1 * 2 ^ 16)
    fb := some (cursorFbs 7), opened := true, mapped := true }

/-- A step to the left, out of the screen. -/
theorem update_cursor_shows_left : ∃ s t : Display, s.capturedCursor.visible = true ∧
    s.updateCursor (cursorPlaneAt (2 ^ 64 - 1)) = some t ∧
      (t.capturedCursor.visible = true → Shows cursorFbs (cursorPlaneAt (2 ^ 64 - 1)) t.capturedCursor) := by
  obtain ⟨s, hrun, hvisible⟩ := exists_run_execWhere_and (f := updateCursor) (G := Faithful cursorFbs)
    (s := { hasCursorPlane := true }) (l := [cursorPlaneAt 0]) (P := fun s => s.capturedCursor.visible = true)
    (by decide +kernel)
  have hfbs : ∀ id, (cursorFbs id).Valid := by
    intro id
    unfold cursorFbs
    split <;> constructor <;> decide
  have hfaithful : Faithful cursorFbs s (cursorPlaneAt (2 ^ 64 - 1)) := fun fb hfb => (Option.some.inj hfb).symm
  obtain ⟨t, ht, hshows⟩ := update_cursor_shows hfbs hrun hfaithful
  exact ⟨s, t, hvisible, ht, hshows⟩

end Display

end MidnightSun.Platf.Kms
