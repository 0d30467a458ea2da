import MidnightSun.Platf.DdupVram

/-!
# What is seen on a captured display

What should be seen is read off what desktop duplication reported: the picture of the desktop that came last, the shape
and the place of the pointer that came last.  `Shows` says that a texture has that picture, with the pointer drawn over
it if it is visible and is to be captured; before the first picture it is that of a texture that was created or cleared.
`Base` and `Points` say what the state of the display has to do with it, and `Reason` why a snapshot may fail.

* `viewport_covers_unrotate`: a rectangle of the rotated desktop is where it should be in the texture.
-/

namespace MidnightSun.Platf.Dxgi

open Lib Lib.Raster Video

variable {Px : Type}

/-! ### What is seen -/

/-- What desktop duplication reported last. -/
structure Seen (Px : Type) where
  desktop : Option Px := none
  shape : Option PointerShape := none
  position : Option (ℤ × ℤ × Bool) := none

def Seen.see (seen : Seen Px) (c : Surroundings Px) : Seen Px :=
  if c.nextFrame ≠ .ok then seen
  else
    { desktop := if c.lastPresentTime = 0 then seen.desktop else some c.src.data
      shape := if c.shape.data.isEmpty then seen.shape else some c.shape
      position := if c.lastMouseUpdateTime = 0 then seen.position
        else some (c.pointerX, c.pointerY, c.pointerVisible) }

/-- The rectangle of the texture in which a rectangle of the rotated desktop is. -/
def viewport (disp : DisplayInfo) (x y width height : ℤ) : Viewport :=
  match disp.rotation with
  | .unspecified | .identity => ⟨x, y, width, height⟩
  | .rotate90 => ⟨y, disp.width - width - x, height, width⟩
  | .rotate180 => ⟨disp.width - width - x, disp.height - height - y, width, height⟩
  | .rotate270 => ⟨disp.height - height - y, x, height, width⟩

/-- Where a pixel of the rotated desktop is in the texture. -/
def unrotate (disp : DisplayInfo) (x y : ℤ) : ℤ × ℤ :=
  match disp.rotation with
  | .unspecified | .identity => (x, y)
  | .rotate90 => (y, disp.width - 1 - x)
  | .rotate180 => (disp.width - 1 - x, disp.height - 1 - y)
  | .rotate270 => (disp.height - 1 - y, x)

def Viewport.Covers (view : Viewport) (p : ℤ × ℤ) : Prop :=
  (view.topLeftX ≤ p.1 ∧ p.1 < view.topLeftX + view.width) ∧ view.topLeftY ≤ p.2 ∧ p.2 < view.topLeftY + view.height

/-- The pointer is drawn into the pixels of its rectangle. -/
theorem viewport_covers_unrotate (disp : DisplayInfo) (x y width height px py : ℤ) :
    (viewport disp x y width height).Covers (unrotate disp px py) ↔
      (x ≤ px ∧ px < x + width) ∧ y ≤ py ∧ py < y + height := by
  unfold viewport unrotate Viewport.Covers
  cases disp.rotation with
  | unspecified | identity => rfl
  | rotate90 | rotate180 | rotate270 =>
    simp only
    omega

/-- The texture of an image of the pointer. -/
def cursorTexture (shape : PointerShape) (image : List Pixel) : Option CursorTexture :=
  if image.isEmpty then none else some ⟨shape.width, image.length / shape.width, image⟩

def makeCursorImage (invert : Bool) (shape : PointerShape) : Option (List Pixel) :=
  if invert then makeCursorXorImage shape else makeCursorAlphaImage shape

/-- The texture that is drawn. -/
def Seen.texture (seen : Seen Px) (invert : Bool) : Option CursorTexture :=
  seen.shape.bind fun shape => (makeCursorImage invert shape).bind (cursorTexture shape)

section Picture

variable (gpu : Gpu Px) (disp : DisplayInfo)

def drawAt (x y : ℤ) (invert : Bool) (texture : Option CursorTexture) (px : Px) : Px :=
  match texture with
  | none => px
  | some texture => gpu.draw invert texture (viewport disp x y texture.width texture.height) px

/-- The pointer over a picture of the desktop. -/
def Seen.picture (seen : Seen Px) (cursorVisible : Bool) (px : Px) : Px :=
  match seen.position with
  | some (x, y, true) =>
    if cursorVisible then
      drawAt gpu disp x y true (seen.texture true) (drawAt gpu disp x y false (seen.texture false) px)
    else px
  | _ => px

/-- The picture of the desktop that came last, with the pointer.  Before one came, there is the picture of a texture
that was just created, or a black one. -/
def Shows (seen : Seen Px) (cursorVisible : Bool) (px : Px) : Prop :=
  ∃ base, px = seen.picture gpu disp cursorVisible base ∧
    match seen.desktop with
    | some desktop => base = desktop
    | none => base = gpu.created ∨ base = gpu.cleared

end Picture

/-! ### Capture -/

structure Capture (Px : Type) where
  display : DdupVram Px := {}
  status : CaptureE := .ok
  out : Option ℕ := none
  /-- the images that encoders hold, with what their textures showed when they were handed out -/
  held : List (ℕ × Px) := []

inductive CaptureEvent (Px : Type) where
  | snapshot (c : Surroundings Px)
  /-- an encoder lets go of an image -/
  | drop (k : ℕ)

namespace Capture

def shown (display : DdupVram Px) (img : ℕ) : List (ℕ × Px) :=
  match (display.images img).captureTexture with
  | some texture => [(img, texture.data)]
  | none => []

/-- A display that was captured with another status than `ok` and `timeout` is not captured any more. -/
def step (gpu : Gpu Px) (disp : DisplayInfo) (s : Capture Px) : CaptureEvent Px → Option (Capture Px)
  | .snapshot c =>
    if s.status = .ok ∨ s.status = .timeout then
      match snapshot gpu disp (s.held.map Prod.fst) c s.display with
      | .ok img display => some { display, status := .ok, out := some img, held := shown display img ++ s.held }
      | .error (.status status) display => some { s with display, status, out := none }
      | .error .undefined _ => none
    else none
  | .drop k => some { s with held := s.held.eraseIdx k }

/-- What was reported. -/
def seen (es : List (CaptureEvent Px)) : Seen Px :=
  es.foldl (fun seen e =>
    match e with
    | .snapshot c => seen.see c
    | .drop _ => seen) {}

end Capture

/-! ### The invariant -/

def textureWidth (texture : Option CursorTexture) : ℤ := (texture.map CursorTexture.width).getD 0

def textureHeight (texture : Option CursorTexture) : ℤ := (texture.map CursorTexture.height).getD 0

/-- A cursor at this place, with this texture. -/
def cursorAt (disp : DisplayInfo) (position : Option (ℤ × ℤ × Bool)) (texture : Option CursorTexture) : GpuCursor :=
  let cursor : GpuCursor :=
    { texture
      textureWidth := textureWidth texture
      textureHeight := textureHeight texture
      inputRes := texture }
  match position with
  | none => cursor.updateViewport
  | some (x, y, visible) => cursor.setPos x y disp.width disp.height disp.rotation visible

section Cursor

variable (disp : DisplayInfo) (position : Option (ℤ × ℤ × Bool))

theorem cursorAt_setPos (texture : Option CursorTexture) (x y : ℤ) (visible : Bool) :
    (cursorAt disp position texture).setPos x y disp.width disp.height disp.rotation visible =
      cursorAt disp (some (x, y, visible)) texture := by
  cases position <;> cases hrotation : disp.rotation <;>
    simp [cursorAt, GpuCursor.setPos, GpuCursor.updateViewport, hrotation]

theorem cursorAt_setTexture (old texture : Option CursorTexture) :
    { cursorAt disp position old with inputRes := texture }.setTexture (textureWidth texture) (textureHeight texture)
      texture = cursorAt disp position texture := by
  cases position <;> cases hrotation : disp.rotation <;>
    simp [cursorAt, GpuCursor.setPos, GpuCursor.setTexture, GpuCursor.updateViewport, hrotation]

theorem cursorAt_texture (texture : Option CursorTexture) :
    (cursorAt disp position texture).texture = texture ∧ (cursorAt disp position texture).inputRes = texture := by
  cases position <;> cases hrotation : disp.rotation <;>
    simp [cursorAt, GpuCursor.setPos, GpuCursor.updateViewport, hrotation]

theorem cursorAt_visible (texture : Option CursorTexture) :
    (cursorAt disp position texture).visible = (position.map fun p => p.2.2).getD false := by
  cases position <;> cases hrotation : disp.rotation <;>
    simp [cursorAt, GpuCursor.setPos, GpuCursor.updateViewport, hrotation]

theorem cursorAt_view (x y : ℤ) (visible : Bool) (texture : CursorTexture) :
    (cursorAt disp (some (x, y, visible)) (some texture)).cursorView =
      viewport disp x y texture.width texture.height := by
  cases hrotation : disp.rotation <;>
    simp [cursorAt, viewport, GpuCursor.setPos, GpuCursor.updateViewport, textureWidth, textureHeight, hrotation]

end Cursor

theorem blendCursorImage_cursorAt (gpu : Gpu Px) (disp : DisplayInfo) (invert : Bool) (x y : ℤ) (visible : Bool)
    (res : Option CursorTexture) (texture : Texture Px) :
    blendCursorImage gpu invert (cursorAt disp (some (x, y, visible)) res) texture =
      { texture with data := drawAt gpu disp x y invert res texture.data } := by
  obtain ⟨htexture, hinputRes⟩ := cursorAt_texture disp (some (x, y, visible)) res
  unfold blendCursorImage
  rw [htexture, hinputRes]
  cases res with
  | none => rfl
  | some res =>
    simp only [cursorAt_view]
    rfl

section Invariant

variable (disp : DisplayInfo) (held : List (ℕ × Px))

/-- A texture into which pictures of the desktop can be copied. -/
structure Fits (captureFormat : ℕ) (texture : Texture Px) : Prop where
  width : texture.width = disp.widthBeforeRotation
  height : texture.height = disp.heightBeforeRotation
  format : texture.format = captureFormat
  known : captureFormat ≠ formatUnknown

/-- The textures that the encoders hold are as they were. -/
def Unchanged (s : DdupVram Px) : Prop :=
  ∀ p ∈ held, ∃ texture, (s.images p.1).captureTexture = some texture ∧ texture.data = p.2

/-- The textures that are there can be used. -/
structure Sound (s : DdupVram Px) : Prop where
  unchanged : Unchanged held s
  images : ∀ id texture, (s.images id).captureTexture = some texture → (s.images id).dummy = false →
    Fits disp s.captureFormat texture
  /-- a blank image was not drawn into -/
  blank : ∀ id, (s.images id).blank = true → (s.images id).captureTexture = none
  old : ∀ texture ∈ s.oldSurface, Fits disp s.captureFormat texture

/-- This picture of the desktop was kept. -/
def Keeps (desktop : Option Px) (s : DdupVram Px) : Prop :=
  match s.lastFrame with
  | .nothing => desktop = none
  | .surface texture => Fits disp s.captureFormat texture ∧ desktop = some texture.data
  | .image id => ∃ texture, (s.images id).captureTexture = some texture ∧ (s.images id).dummy = false ∧
      desktop = some texture.data

/-- Before the switches, when the snapshot began with `old`. -/
structure Base (old : DdupVram Px) (desktop : Option Px) (s : DdupVram Px) : Prop where
  sound : Sound disp held s
  keeps : Keeps disp desktop s
  known : s.lastFrame = .nothing ↔ s.captureFormat = formatUnknown
  format : s.captureFormat = old.captureFormat
  last : s.lastFrame = old.lastFrame

/-- The cursors are those of the pointer. -/
def Points (seen : Seen Px) (s : DdupVram Px) : Prop :=
  ∀ invert, s.cursor invert = cursorAt disp seen.position (seen.texture invert)

variable (c : Surroundings Px) (old : DdupVram Px)

/-- The display has changed. -/
def Changed : Prop :=
  c.lastPresentTime ≠ 0 ∧ (c.src.width ≠ disp.widthBeforeRotation ∨ c.src.height ≠ disp.heightBeforeRotation ∨
    old.captureFormat ≠ formatUnknown ∧ old.captureFormat ≠ c.src.format)

/-- The calls that a snapshot may make.  An image is created or locked if it was pulled; the one that kept the last
picture is locked. -/
def MayCall (used : List ℕ) : ApiCall → Prop
  | .getFramePointerShape | .createCursorTexture _ | .createCursorView _ => c.shape.data ≠ []
  | .queryFrame => c.lastPresentTime ≠ 0
  | .createSurface => c.cursorVisible = true
  | .createImage id => c.pull used = some id
  | .lock id => c.pull used = some id ∨ old.lastFrame = .image id

/-- Why a snapshot may return early. -/
def Reason (used : List ℕ) : Early → Prop
  | .status .ok => False
  | .status .reinit => c.nextFrame = .reinit ∨ Changed disp c old
  | .status .timeout =>
    c.nextFrame = .timeout ∨ c.lastMouseUpdateTime = 0 ∧ c.shape.data = [] ∧ c.lastPresentTime = 0
  -- an image is only pulled when no image keeps the last picture any more
  | .status .interrupted => c.nextFrame = .interrupted ∨ c.pull used = none
  | .status .error => c.nextFrame = .error ∨ ∃ call, MayCall c old used call ∧ c.works call = false
  | .undefined => False

/-- How a snapshot may return early. -/
def Fails (e : Early) (s : DdupVram Px) : Prop := Unchanged held s ∧ Reason disp c old (held.map Prod.fst) e

end Invariant

theorem Keeps.congr {disp : DisplayInfo} {desktop : Option Px} {s t : DdupVram Px} (h : Keeps disp desktop s)
    (hlast : t.lastFrame = s.lastFrame) (hformat : t.captureFormat = s.captureFormat)
    (himages : ∀ id, s.lastFrame = .image id → (t.images id).captureTexture = (s.images id).captureTexture ∧
      (t.images id).dummy = (s.images id).dummy) : Keeps disp desktop t := by
  unfold Keeps at h ⊢
  rw [hlast]
  cases hframe : s.lastFrame with
  | nothing =>
    rw [hframe] at h
    exact h
  | surface texture =>
    rw [hframe] at h
    simp only [hformat]
    exact h
  | image id =>
    rw [hframe] at h
    obtain ⟨htexture, hdummy⟩ := himages id hframe
    simp only [htexture, hdummy]
    exact h

end MidnightSun.Platf.Dxgi
