import MidnightSun.Lib.Early
import MidnightSun.Lib.Run
import MidnightSun.Platf.DdupCursor
import MidnightSun.Video.CaptureThread

/-!
# Capture into textures with desktop duplication (src/platform/windows/display_vram.cpp)

`display_ddup_vram_t::snapshot` gets a new picture of the desktop, a new place or shape of the pointer, or both, and has
to hand out an image that shows the desktop with the pointer drawn over it.  The last picture of the desktop is kept so
that the pointer can move over it, either as the image that was handed out, while no pointer is drawn, or as a texture
of its own (`last_frame_variant`).  Images travel to the encoders, which may hold them for as long as they want, so an
image that was handed out is not drawn into again before it is free.

What a texture shows is a parameter `Px`, and so is what drawing a cursor does to it.
-/

namespace MidnightSun.Platf.Dxgi

open Lib Lib.Raster Video

/-! ### Textures -/

/-- `DXGI_FORMAT_UNKNOWN`. -/
def formatUnknown : ℕ := 0

/-- `DXGI_FORMAT_B8G8R8A8_UNORM`. -/
def formatB8G8R8A8 : ℕ := 87

structure Texture (Px : Type) where
  width : ℕ
  height : ℕ
  format : ℕ
  data : Px
  deriving DecidableEq

/-- `CopyResource`: nothing is copied if the textures do not match. -/
def copyResource {Px : Type} (dst src : Texture Px) : Texture Px :=
  if dst.width = src.width ∧ dst.height = src.height ∧ dst.format = src.format then { dst with data := src.data }
  else dst

/-- What the graphics card does. -/
structure Gpu (Px : Type) where
  /-- a texture that was created without contents -/
  created : Px
  /-- `ClearRenderTargetView` in black -/
  cleared : Px
  /-- the draw call of `blend_cursor`, of the alpha image and of the XOR image -/
  draw : (invert : Bool) → CursorTexture → Viewport → Px → Px

/-- What does not change while a display is captured. -/
structure DisplayInfo where
  width : ℤ
  height : ℤ
  widthBeforeRotation : ℕ
  heightBeforeRotation : ℕ
  rotation : Rotation

/-! ### The display -/

/-- `img_d3d_t`. -/
structure ImgD3d (Px : Type) where
  captureTexture : Option (Texture Px) := none
  dummy : Bool := false
  blank : Bool := true
  frameTimestamp : Option ℤ := none

/-- `last_frame_variant`. -/
inductive LastFrame (Px : Type) where
  | nothing
  | surface (texture : Texture Px)
  | image (id : ℕ)

/-- `display_ddup_vram_t`, with the images of the pool. -/
structure DdupVram (Px : Type) where
  captureFormat : ℕ := formatUnknown
  lastFrame : LastFrame Px := .nothing
  oldSurface : Option (Texture Px) := none
  oldSurfaceTimestamp : ℤ := 0
  cursorAlpha : GpuCursor := {}
  cursorXor : GpuCursor := {}
  images : ℕ → ImgD3d Px := fun _ => {}

/-- What may fail. -/
inductive ApiCall where
  | getFramePointerShape
  | createCursorTexture (invert : Bool)
  | createCursorView (invert : Bool)
  | queryFrame
  | createSurface
  /-- the calls of `complete_img` -/
  | createImage (id : ℕ)
  | lock (id : ℕ)
  deriving DecidableEq

/-- What `snapshot` meets.  `next_frame` fills in the times and the place of the pointer; the shape is filled in if
there is a new one, otherwise its buffer is empty. -/
structure Surroundings (Px : Type) where
  nextFrame : CaptureE := .ok
  lastPresentTime : ℤ := 0
  lastMouseUpdateTime : ℤ := 0
  pointerX : ℤ := 0
  pointerY : ℤ := 0
  pointerVisible : Bool := false
  shape : PointerShape := ⟨.invalid, 0, 0, 0, []⟩
  /-- the picture of the desktop -/
  src : Texture Px
  works : ApiCall → Bool := fun _ => true
  /-- `cursor_visible` -/
  cursorVisible : Bool := false
  /-- `pull_free_image_cb`, by the images that are in use -/
  pull : List ℕ → Option ℕ
  now : ℤ := 0
  /-- the time at which the performance counter had this value -/
  steady : ℤ → ℤ := id

/-- How `snapshot` returns early. -/
inductive Early where
  | status (status : CaptureE)
  /-- a buffer was read behind its end -/
  | undefined
  deriving DecidableEq

/-- A part of `snapshot`. -/
abbrev Snapshot (Px : Type) := EStateM Early (DdupVram Px)

def fail {Px α : Type} (status : CaptureE) : Snapshot Px α := throw (.status status)

namespace DdupVram

variable {Px : Type}

def cursor (invert : Bool) (s : DdupVram Px) : GpuCursor := if invert then s.cursorXor else s.cursorAlpha

def setCursor (invert : Bool) (s : DdupVram Px) (cursor : GpuCursor) : DdupVram Px :=
  if invert then { s with cursorXor := cursor } else { s with cursorAlpha := cursor }

def setImage (id : ℕ) (img : ImgD3d Px) (s : DdupVram Px) : DdupVram Px :=
  { s with images := Function.update s.images id img }

/-- An image's texture is drawn into. -/
def paint (id : ℕ) (f : Texture Px → Texture Px) (s : DdupVram Px) : DdupVram Px :=
  s.setImage id { s.images id with captureTexture := (s.images id).captureTexture.map f }

/-- The images that are in use, if the encoders hold these. -/
def inUse (held : List ℕ) (s : DdupVram Px) : List ℕ :=
  match s.lastFrame with
  | .image id => id :: held
  | _ => held

end DdupVram

section Snapshot

variable {Px : Type} (gpu : Gpu Px) (disp : DisplayInfo) (held : List ℕ) (c : Surroundings Px)

/-! ### The pointer -/

/-- `set_cursor_texture`. -/
def setCursorTexture (invert : Bool) (image : List Pixel) : Snapshot Px Unit :=
  if image.isEmpty then
    modify fun s => s.setCursor invert ({ s.cursor invert with inputRes := none }.setTexture 0 0 none)
  else if c.shape.width = 0 then throw .undefined
  else if c.works (.createCursorTexture invert) then do
    let texture : CursorTexture := ⟨c.shape.width, image.length / c.shape.width, image⟩
    modify fun s => s.setCursor invert { s.cursor invert with inputRes := none }
    if c.works (.createCursorView invert) then
      modify fun s => s.setCursor invert
        ({ s.cursor invert with inputRes := some texture }.setTexture texture.width texture.height (some texture))
    else fail .error
  else fail .error

def setPointerShape : Snapshot Px Unit :=
  if c.shape.data.isEmpty then pure ()
  else if c.works .getFramePointerShape then
    match makeCursorAlphaImage c.shape, makeCursorXorImage c.shape with
    | some alpha, some xor => do
      setCursorTexture c false alpha
      setCursorTexture c true xor
    | _, _ => throw .undefined
  else fail .error

def setPointerPosition : Snapshot Px Unit :=
  if c.lastMouseUpdateTime = 0 then pure ()
  else modify fun s =>
    { s with
      cursorAlpha := s.cursorAlpha.setPos c.pointerX c.pointerY disp.width disp.height disp.rotation c.pointerVisible
      cursorXor := s.cursorXor.setPos c.pointerX c.pointerY disp.width disp.height disp.rotation c.pointerVisible }

/-! ### The picture of the desktop -/

/-- `src`, if there is a new picture. -/
def getSource : Snapshot Px (Option (Texture Px)) :=
  if c.lastPresentTime = 0 then pure none
  else if c.works .queryFrame then
    if c.src.width ≠ disp.widthBeforeRotation ∨ c.src.height ≠ disp.heightBeforeRotation then fail .reinit
    else do
      modify fun s => if s.captureFormat = formatUnknown then { s with captureFormat := c.src.format } else s
      let s ← get
      if s.captureFormat ≠ c.src.format then fail .reinit else pure (some c.src)
  else fail .error

/-- `lfa`. -/
inductive LastFrameAction where
  | nothing
  | replaceSurfaceWithImg
  | replaceImgWithSurface
  | copySrcToImg
  | copySrcToSurface
  deriving DecidableEq

/-- `ofa`. -/
inductive OutFrameAction where
  | forwardLastImg
  | copyLastSurfaceAndBlendCursor
  | dummyFallback
  deriving DecidableEq

/-- What is done, by whether there is a new picture and whether the pointer is drawn. -/
def actions (s : DdupVram Px) (src blend : Bool) : LastFrameAction × OutFrameAction :=
  if s.captureFormat = formatUnknown then (.nothing, .dummyFallback)
  else if src then
    if blend then (.copySrcToSurface, .copyLastSurfaceAndBlendCursor) else (.copySrcToImg, .forwardLastImg)
  else
    match s.lastFrame with
    | .nothing => (.nothing, .dummyFallback)
    | .image _ =>
      if blend then (.replaceImgWithSurface, .copyLastSurfaceAndBlendCursor) else (.nothing, .forwardLastImg)
    | .surface _ =>
      if blend then (.nothing, .copyLastSurfaceAndBlendCursor) else (.replaceSurfaceWithImg, .forwardLastImg)

/-! ### Images and surfaces -/

def pullFreeImage : Snapshot Px ℕ := do
  let s ← get
  match c.pull (s.inUse held) with
  | some id => pure id
  | none => fail .interrupted

/-- `complete_img`. -/
def completeImg (id : ℕ) (dummy : Bool) : Snapshot Px Unit := do
  let s ← get
  if (s.images id).captureTexture.isSome ∧ (s.images id).dummy = dummy then pure ()
  else if dummy = false ∧ s.captureFormat = formatUnknown then fail .error
  else do
    set (s.setImage id { s.images id with captureTexture := none, dummy })
    if c.works (.createImage id) then
      let format := if s.captureFormat = formatUnknown then formatB8G8R8A8 else s.captureFormat
      set (s.setImage id
        { s.images id with
          captureTexture := some ⟨disp.widthBeforeRotation, disp.heightBeforeRotation, format, gpu.created⟩
          dummy })
    else fail .error

/-- `get_locked_d3d_img`. -/
def getLockedD3dImg (id : ℕ) (dummy : Bool) : Snapshot Px Unit := do
  completeImg gpu disp c id dummy
  if c.works (.lock id) then modify fun s => s.setImage id { s.images id with blank := false }
  else fail .error

/-- `create_surface`. -/
def createSurface : Snapshot Px (Texture Px) := do
  let s ← get
  match s.oldSurface with
  | some surface =>
    set { s with oldSurface := none }
    pure surface
  | none =>
    if c.works .createSurface then
      pure ⟨disp.widthBeforeRotation, disp.heightBeforeRotation, s.captureFormat, gpu.created⟩
    else fail .error

/-- `blend_cursor`, with one of the two images. -/
def blendCursorImage (invert : Bool) (cursor : GpuCursor) (texture : Texture Px) : Texture Px :=
  match cursor.texture, cursor.inputRes with
  | some _, some res => { texture with data := gpu.draw invert res cursor.cursorView texture.data }
  | _, _ => texture

/-- `blend_cursor`. -/
def blendCursor (id : ℕ) (s : DdupVram Px) : DdupVram Px :=
  s.paint id fun texture => blendCursorImage gpu true s.cursorXor (blendCursorImage gpu false s.cursorAlpha texture)

/-! ### `snapshot` -/

/-- The first `switch`. -/
def doLastFrameAction (src : Option (Texture Px)) : LastFrameAction → Snapshot Px Unit
  | .nothing => pure ()
  | .replaceSurfaceWithImg => do
    let s ← get
    match s.lastFrame with
    | .surface surface => do
      let img ← pullFreeImage held c
      getLockedD3dImg gpu disp c img false
      modify fun s =>
        { s.paint img fun texture => copyResource texture surface with
          oldSurface := some surface
          oldSurfaceTimestamp := c.now
          lastFrame := .image img }
    | _ => fail .error
  | .replaceImgWithSurface => do
    let s ← get
    match s.lastFrame with
    | .image img => do
      getLockedD3dImg gpu disp c img false
      let s ← get
      match (s.images img).captureTexture with
      | none => throw .undefined
      | some texture => do
        -- the surface that is not there yet
        modify fun s => { s with lastFrame := .nothing }
        let surface ← createSurface gpu disp c
        modify fun s => { s with lastFrame := .surface (copyResource surface texture) }
    | _ => fail .error
  | .copySrcToImg =>
    match src with
    | none => throw .undefined
    | some src => do
      modify fun s => { s with lastFrame := .nothing }
      let img ← pullFreeImage held c
      getLockedD3dImg gpu disp c img false
      modify fun s => { s.paint img fun texture => copyResource texture src with lastFrame := .image img }
  | .copySrcToSurface =>
    match src with
    | none => throw .undefined
    | some src => do
      let s ← get
      match s.lastFrame with
      | .surface surface => set { s with lastFrame := .surface (copyResource surface src) }
      | _ => do
        set { s with lastFrame := .nothing }
        let surface ← createSurface gpu disp c
        modify fun s => { s with lastFrame := .surface (copyResource surface src) }

/-- The second `switch`, with `img_out`. -/
def doOutFrameAction (blend : Bool) : OutFrameAction → Snapshot Px ℕ
  | .forwardLastImg => do
    let s ← get
    match s.lastFrame with
    | .image img => pure img
    | _ => fail .error
  | .copyLastSurfaceAndBlendCursor => do
    let s ← get
    match s.lastFrame with
    | .surface surface =>
      if blend then do
        let img ← pullFreeImage held c
        getLockedD3dImg gpu disp c img false
        modify fun s => blendCursor gpu img (s.paint img fun texture => copyResource texture surface)
        pure img
      else fail .error
    | _ => fail .error
  | .dummyFallback => do
    let img ← pullFreeImage held c
    let s ← get
    let reclear := !(s.images img).blank && (s.images img).captureTexture.isSome
    getLockedD3dImg gpu disp c img true
    modify fun s => if reclear then s.paint img fun texture => { texture with data := gpu.cleared } else s
    modify fun s => if blend then blendCursor gpu img s else s
    pure img

/-- The old surface is destroyed when it was not used for ten seconds. -/
def expireOldSurface (s : DdupVram Px) : DdupVram Px :=
  if s.oldSurfaceTimestamp + 10000000000 < c.now then { s with oldSurface := none } else s

def frameTimestamp : Option ℤ :=
  let displayed := max c.lastPresentTime c.lastMouseUpdateTime
  if displayed = 0 then none else some (c.steady displayed)

/-- `snapshot`. -/
def snapshot : Snapshot Px ℕ :=
  if c.nextFrame ≠ .ok then fail c.nextFrame
  else if c.lastMouseUpdateTime = 0 ∧ c.shape.data.isEmpty ∧ c.lastPresentTime = 0 then fail .timeout
  else do
    setPointerShape c
    setPointerPosition disp c
    let s ← get
    let blend := (s.cursorAlpha.visible || s.cursorXor.visible) && c.cursorVisible
    let src ← getSource disp c
    let s ← get
    doLastFrameAction gpu disp held c src (actions s src.isSome blend).1
    let img ← doOutFrameAction gpu disp held c blend (actions s src.isSome blend).2
    modify (expireOldSurface c)
    modify fun s => s.setImage img { s.images img with frameTimestamp := frameTimestamp c }
    pure img

end Snapshot

end MidnightSun.Platf.Dxgi
