import MidnightSun.Platf.DdupSeen

/-!
# The parts of a snapshot (src/platform/windows/display_vram.cpp)

One triple for each part of `snapshot`: what it keeps, and why it may return early.

* `getSource_triple`: the source of the picture fits the textures that are there;
* `doLastFrameAction_triple`: the first switch keeps the picture that came last, as the second needs it;
* `doOutFrameAction_triple`: the second switch hands out an image that shows what it should.
-/

namespace MidnightSun.Platf.Dxgi

open Lib Lib.Raster Video

variable {Px : Type}

/-! ### The pointer -/

section Pointer

variable {disp : DisplayInfo} {held : List (ℕ × Px)} {c : Surroundings Px} {old : DdupVram Px} {desktop : Option Px}

theorem Base.setCursors {s : DdupVram Px} (h : Base disp held old desktop s) (cursorAlpha cursorXor : GpuCursor) :
    Base disp held old desktop { s with cursorAlpha, cursorXor } :=
  ⟨⟨h.sound.unchanged, h.sound.images, h.sound.blank, h.sound.old⟩, h.keeps, h.known, h.format, h.last⟩

theorem Base.setCursor {s : DdupVram Px} (h : Base disp held old desktop s) (invert : Bool) (cursor : GpuCursor) :
    Base disp held old desktop (s.setCursor invert cursor) := by
  cases invert <;> exact h.setCursors _ _

@[simp] theorem cursor_setCursor (s : DdupVram Px) (invert : Bool) (cursor : GpuCursor) :
    (s.setCursor invert cursor).cursor invert = cursor := by
  cases invert <;> rfl

@[simp] theorem cursor_not_setCursor (s : DdupVram Px) (invert : Bool) (cursor : GpuCursor) :
    (s.setCursor invert cursor).cursor (!invert) = s.cursor (!invert) := by
  cases invert <;> rfl

theorem Fails.error {s : DdupVram Px} (call : ApiCall) (h : Unchanged held s)
    (hmay : MayCall c old (held.map Prod.fst) call) (hcall : ¬c.works call = true) :
    Fails disp held c old (.status .error) s :=
  ⟨h, Or.inr ⟨call, hmay, Bool.eq_false_iff.mpr hcall⟩⟩

/-- One of the textures is that of the new shape. -/
theorem setCursorTexture_triple (desktop : Option Px) (position : Option (ℤ × ℤ × Bool)) (invert : Bool)
    (other : GpuCursor) {image : List Pixel} (hwidth : image ≠ [] → c.shape.width ≠ 0) (hdata : c.shape.data ≠ []) :
    Early.Triple (fun s => Base disp held old desktop s ∧
        (∃ old, s.cursor invert = cursorAt disp position old) ∧ s.cursor (!invert) = other)
      (setCursorTexture c invert image)
      (fun _ s => Base disp held old desktop s ∧
        s.cursor invert = cursorAt disp position (cursorTexture c.shape image) ∧ s.cursor (!invert) = other)
      (Fails disp held c old) := by
  unfold setCursorTexture
  refine Early.Triple.cond (fun hempty => Early.Triple.update ?_) fun hne => ?_
  · rintro s ⟨hbase, ⟨old, hold⟩, hother⟩
    refine ⟨hbase.setCursor _ _, ?_, (cursor_not_setCursor _ _ _).trans hother⟩
    rw [cursor_setCursor, hold]
    unfold cursorTexture
    rw [if_pos hempty]
    exact cursorAt_setTexture disp position old none
  have himage : image ≠ [] := fun heq => hne (by rw [heq]; rfl)
  refine Early.Triple.cond (fun hzero => absurd hzero (hwidth himage)) fun _ => ?_
  refine Early.Triple.cond (fun _ => ?_) fun hfails => Early.Triple.raise _ fun s hs =>
    Fails.error (.createCursorTexture invert) hs.1.sound.unchanged hdata hfails
  refine Early.Triple.bind (Early.Triple.update (Q := fun _ s => Base disp held old desktop s ∧
    (∃ old, s.cursor invert = { cursorAt disp position old with inputRes := none }) ∧ s.cursor (!invert) = other) ?_)
    fun _ => ?_
  · rintro s ⟨hbase, ⟨old, hold⟩, hother⟩
    refine ⟨hbase.setCursor _ _, ⟨old, ?_⟩, (cursor_not_setCursor _ _ _).trans hother⟩
    rw [cursor_setCursor, hold]
  refine Early.Triple.cond (fun _ => Early.Triple.update ?_) fun hfails => Early.Triple.raise _ fun s hs =>
    Fails.error (.createCursorView invert) hs.1.sound.unchanged hdata hfails
  rintro s ⟨hbase, ⟨old, hold⟩, hother⟩
  refine ⟨hbase.setCursor _ _, ?_, (cursor_not_setCursor _ _ _).trans hother⟩
  rw [cursor_setCursor, hold]
  unfold cursorTexture
  rw [if_neg (by simpa using hne)]
  exact cursorAt_setTexture disp position old (some ⟨c.shape.width, image.length / c.shape.width, image⟩)

/-- The textures are those of the shape that came last. -/
theorem setPointerShape_triple {seen : Seen Px} (hshape : c.shape.Complete) (hok : c.nextFrame = .ok) :
    Early.Triple (fun s => Base disp held old desktop s ∧ Points disp seen s) (setPointerShape c)
      (fun _ s => Base disp held old desktop s ∧ Points disp { seen with shape := (seen.see c).shape } s)
      (Fails disp held c old) := by
  unfold setPointerShape
  refine Early.Triple.cond (fun hempty => Early.Triple.ret _ fun s hs => ?_) fun hne => ?_
  · unfold Seen.see
    rw [if_neg (not_not_intro hok), if_pos hempty]
    exact hs
  have hdata : c.shape.data ≠ [] := fun heq => hne (by rw [heq]; rfl)
  refine Early.Triple.cond (fun _ => ?_) fun hfails => Early.Triple.raise _ fun s hs =>
    Fails.error .getFramePointerShape hs.1.sound.unchanged hdata hfails
  obtain ⟨alpha, xor, halpha, hxor, hwidth⟩ := hshape.images
  rw [halpha, hxor]
  have hshape' : (seen.see c).shape = some c.shape := by
    unfold Seen.see
    rw [if_neg (not_not_intro hok), if_neg hne]
  have htexture : ∀ invert, ({ seen with shape := (seen.see c).shape } : Seen Px).texture invert =
      (makeCursorImage invert c.shape).bind (cursorTexture c.shape) := by
    intro invert
    unfold Seen.texture
    rw [hshape']
    rfl
  refine Early.Triple.bind (Q := fun _ s => Base disp held old desktop s ∧
      s.cursor false = cursorAt disp seen.position (cursorTexture c.shape alpha) ∧
        ∃ old, s.cursor true = cursorAt disp seen.position old) ?_ fun _ => ?_
  · refine Early.Triple.of_pre fun s hs => (setCursorTexture_triple desktop seen.position false (s.cursor true)
      (fun hne hzero => hne (hwidth hzero).1) hdata).conseq ?_ ?_
    · rintro _ rfl
      exact ⟨hs.1, ⟨_, hs.2 false⟩, rfl⟩
    · rintro _ t ⟨hbase, halpha, hother⟩
      exact ⟨hbase, halpha, _, hother.trans (hs.2 true)⟩
  · refine Early.Triple.of_pre fun s hs => (setCursorTexture_triple desktop seen.position true (s.cursor false)
      (fun hne hzero => hne (hwidth hzero).2) hdata).conseq ?_ ?_
    · rintro _ rfl
      exact ⟨hs.1, hs.2.2, rfl⟩
    · rintro _ t ⟨hbase, hcursor, hother⟩
      refine ⟨hbase, fun invert => ?_⟩
      rw [htexture]
      cases invert with
      | false =>
        have halpha' : t.cursor false = s.cursor false := hother
        rw [halpha', hs.2.1, makeCursorImage, if_neg Bool.false_ne_true, halpha]
        rfl
      | true =>
        rw [hcursor, makeCursorImage, if_pos rfl, hxor]
        rfl

/-- The cursors are where the pointer was last. -/
theorem setPointerPosition_triple {seen : Seen Px} (hok : c.nextFrame = .ok) :
    Early.Triple (fun s => Base disp held old desktop s ∧ Points disp { seen with shape := (seen.see c).shape } s)
      (setPointerPosition disp c) (fun _ s => Base disp held old desktop s ∧ Points disp (seen.see c) s)
      (Fails disp held c old) := by
  unfold setPointerPosition
  refine Early.Triple.cond (fun hzero => Early.Triple.ret _ fun s hs => ⟨hs.1, fun invert => ?_⟩) fun hne =>
    Early.Triple.update fun s hs => ⟨hs.1.setCursors _ _, fun invert => ?_⟩
  · have hposition : (seen.see c).position = seen.position := by
      unfold Seen.see
      rw [if_neg (not_not_intro hok), if_pos hzero]
    rw [hposition]
    exact hs.2 invert
  · have hposition : (seen.see c).position = some (c.pointerX, c.pointerY, c.pointerVisible) := by
      unfold Seen.see
      rw [if_neg (not_not_intro hok), if_neg hne]
    rw [hposition, ← cursorAt_setPos disp seen.position]
    have hcursor : (seen.see c).texture invert = ({ seen with shape := (seen.see c).shape } : Seen Px).texture invert :=
      rfl
    rw [hcursor, ← hs.2 invert]
    cases invert <;> rfl

theorem blend_eq {seen : Seen Px} {s : DdupVram Px} (h : Points disp seen s) :
    (s.cursorAlpha.visible || s.cursorXor.visible) = (seen.position.map fun p => p.2.2).getD false := by
  have halpha : s.cursorAlpha.visible = _ := (congrArg GpuCursor.visible (h false)).trans (cursorAt_visible _ _ _)
  have hxor : s.cursorXor.visible = _ := (congrArg GpuCursor.visible (h true)).trans (cursorAt_visible _ _ _)
  rw [halpha, hxor, Bool.or_self]

end Pointer

/-! ### The picture of the desktop -/

section Source

variable {disp : DisplayInfo} {held : List (ℕ × Px)} {c : Surroundings Px} {old : DdupVram Px} {seen : Seen Px}

/-- When the source of the picture is known. -/
structure Sourced (disp : DisplayInfo) (held : List (ℕ × Px)) (c : Surroundings Px) (old : DdupVram Px)
    (seen : Seen Px) (src : Option (Texture Px)) (s : DdupVram Px) : Prop where
  sound : Sound disp held s
  keeps : Keeps disp seen.desktop s
  points : Points disp (seen.see c) s
  unknown : s.captureFormat = formatUnknown → s.lastFrame = .nothing ∧ src = none
  source : ∀ texture ∈ src, Fits disp s.captureFormat texture ∧ (seen.see c).desktop = some texture.data
  same : src = none → (seen.see c).desktop = seen.desktop ∧
    (s.lastFrame = .nothing → s.captureFormat = formatUnknown)
  last : s.lastFrame = old.lastFrame

theorem getSource_triple (hok : c.nextFrame = .ok) (hsrc : c.lastPresentTime ≠ 0 → c.src.format ≠ formatUnknown) :
    Early.Triple (fun s => Base disp held old seen.desktop s ∧ Points disp (seen.see c) s) (getSource disp c)
      (Sourced disp held c old seen) (Fails disp held c old) := by
  unfold getSource
  refine Early.Triple.cond (fun hzero => Early.Triple.ret _ fun s hs => ?_) fun hne => ?_
  · refine ⟨hs.1.sound, hs.1.keeps, hs.2, fun hformat => ⟨hs.1.known.mpr hformat, rfl⟩, nofun, fun _ =>
      ⟨?_, hs.1.known.mp⟩, hs.1.last⟩
    unfold Seen.see
    rw [if_neg (not_not_intro hok), if_pos hzero]
  refine Early.Triple.cond (fun _ => ?_) fun hfails => Early.Triple.raise _ fun s hs =>
    Fails.error .queryFrame hs.1.sound.unchanged hne hfails
  refine Early.Triple.cond (fun hsize => Early.Triple.raise _ fun s hs =>
    ⟨hs.1.sound.unchanged, Or.inr ⟨hne, hsize.imp_right Or.inl⟩⟩) fun hsize => ?_
  obtain ⟨hwidth, hheight⟩ := not_or.mp hsize
  refine Early.Triple.bind (Q := fun _ s => Sound disp held s ∧ Keeps disp seen.desktop s ∧
    Points disp (seen.see c) s ∧ s.captureFormat ≠ formatUnknown ∧ s.lastFrame = old.lastFrame ∧
      (s.captureFormat ≠ c.src.format → old.captureFormat ≠ formatUnknown ∧ old.captureFormat ≠ c.src.format))
    (Early.Triple.update fun s hs => ?_) fun _ => Early.Triple.gets fun s hs => ?_
  · obtain ⟨hbase, hpoints⟩ := hs
    by_cases hunknown : s.captureFormat = formatUnknown
    · rw [if_pos hunknown]
      have hnothing := hbase.known.mpr hunknown
      -- no texture has been made for a picture of the desktop
      have himages : ∀ id texture, (s.images id).captureTexture = some texture → (s.images id).dummy = false → False :=
        fun id texture ht hd => (hbase.sound.images id texture ht hd).known hunknown
      refine ⟨⟨hbase.sound.unchanged, fun id texture ht hd => (himages id texture ht hd).elim, hbase.sound.blank,
        fun texture ht => absurd hunknown (hbase.sound.old texture ht).known⟩, ?_, hpoints, hsrc hne,
          hbase.last, fun hdiff => absurd rfl hdiff⟩
      have hkeeps := hbase.keeps
      unfold Keeps at hkeeps ⊢
      rw [hnothing] at hkeeps
      simp only [hnothing]
      exact hkeeps
    · rw [if_neg hunknown]
      have hformat := hbase.format
      exact ⟨hbase.sound, hbase.keeps, hpoints, hunknown, hbase.last, fun hdiff => ⟨hformat ▸ hunknown,
        hformat ▸ hdiff⟩⟩
  · obtain ⟨hsound, hkeeps, hpoints, hknown, hlast, hchanged⟩ := hs
    refine Early.Triple.cond (fun hdiff => Early.Triple.raise _ ?_) fun hsame => Early.Triple.ret _ ?_
    · rintro _ rfl
      exact ⟨hsound.unchanged, Or.inr ⟨hne, Or.inr (Or.inr (hchanged hdiff))⟩⟩
    · rintro _ rfl
      refine ⟨hsound, hkeeps, hpoints, fun hunknown => absurd hunknown hknown, fun texture ht => ?_, nofun, hlast⟩
      obtain rfl := Option.some.inj ht
      refine ⟨⟨not_not.mp hwidth, not_not.mp hheight, (not_not.mp hsame).symm, hknown⟩, ?_⟩
      unfold Seen.see
      rw [if_neg (not_not_intro hok), if_neg hne]

end Source

/-! ### Images and surfaces -/

section Images

variable {gpu : Gpu Px} {disp : DisplayInfo} {held : List (ℕ × Px)} {c : Surroundings Px} {old : DdupVram Px}
  {s₀ : DdupVram Px} {id : ℕ} {dummy : Bool}

/-- `complete_img` has nothing to do. -/
def Completed (s : DdupVram Px) (id : ℕ) (dummy : Bool) : Prop :=
  (s.images id).captureTexture.isSome ∧ (s.images id).dummy = dummy

theorem Unchanged.setImage {s : DdupVram Px} (h : Unchanged held s) {img : ImgD3d Px}
    (hheld : id ∈ held.map Prod.fst → img.captureTexture = (s.images id).captureTexture) :
    Unchanged held (s.setImage id img) := by
  intro p hp
  obtain ⟨texture, htexture, hdata⟩ := h p hp
  refine ⟨texture, ?_, hdata⟩
  by_cases hid : p.1 = id
  · have hmem : id ∈ held.map Prod.fst := hid ▸ List.mem_map_of_mem hp
    rw [← htexture, hid, ← hheld hmem]
    simp [DdupVram.setImage]
  · simpa [DdupVram.setImage, Function.update_of_ne hid] using htexture

theorem Sound.setImage {s : DdupVram Px} (h : Sound disp held s) {img : ImgD3d Px}
    (hheld : id ∈ held.map Prod.fst → img.captureTexture = (s.images id).captureTexture)
    (himg : ∀ texture, img.captureTexture = some texture → img.dummy = false → Fits disp s.captureFormat texture)
    (hblank : img.blank = true → img.captureTexture = none) : Sound disp held (s.setImage id img) := by
  refine ⟨h.unchanged.setImage hheld, fun other texture htexture hdummy => ?_, fun other hother => ?_, h.old⟩
  · by_cases hid : other = id
    · subst hid
      simp only [DdupVram.setImage, Function.update_self] at htexture hdummy
      exact himg texture htexture hdummy
    · simp only [DdupVram.setImage, Function.update_of_ne hid] at htexture hdummy
      exact h.images other texture htexture hdummy
  · by_cases hid : other = id
    · subst hid
      simp only [DdupVram.setImage, Function.update_self] at hother ⊢
      exact hblank hother
    · simp only [DdupVram.setImage, Function.update_of_ne hid] at hother ⊢
      exact h.blank other hother

/-- An image that was drawn into. -/
def filled (s : DdupVram Px) (id : ℕ) (dummy : Bool) (texture : Texture Px) : DdupVram Px :=
  s.setImage id { s.images id with captureTexture := some texture, dummy, blank := false }

@[simp] theorem filled_images (s : DdupVram Px) (id : ℕ) (dummy : Bool) (texture : Texture Px) :
    (filled s id dummy texture).images id =
      { s.images id with captureTexture := some texture, dummy, blank := false } :=
  Function.update_self _ _ _

theorem paint_filled (s : DdupVram Px) (id : ℕ) (dummy : Bool) (texture : Texture Px) (f : Texture Px → Texture Px) :
    (filled s id dummy texture).paint id f = filled s id dummy (f texture) := by
  simp [DdupVram.paint, filled, DdupVram.setImage]

theorem Sound.filled (h : Sound disp held s₀) {texture : Texture Px} (hid : id ∉ held.map Prod.fst)
    (htexture : dummy = false → Fits disp s₀.captureFormat texture) : Sound disp held (filled s₀ id dummy texture) :=
  h.setImage (fun hmem => absurd hmem hid) (fun _ ht hdummy => Option.some.inj ht ▸ htexture hdummy) nofun

/-- The image has a texture after `complete_img`: its own, or a new one. -/
theorem completeImg_triple (hheld : id ∈ held.map Prod.fst → Completed s₀ id dummy)
    (hcall : ¬Completed s₀ id dummy → c.pull (held.map Prod.fst) = some id) (hs₀ : Sound disp held s₀)
    (hformat : dummy = true ∨ s₀.captureFormat ≠ formatUnknown) :
    Early.Triple (fun s => s = s₀) (completeImg gpu disp c id dummy)
      (fun _ s => ∃ texture, s = s₀.setImage id { s₀.images id with captureTexture := some texture, dummy } ∧
        (Completed s₀ id dummy → (s₀.images id).captureTexture = some texture) ∧
        (¬Completed s₀ id dummy → texture.data = gpu.created) ∧
        (dummy = false → Fits disp s₀.captureFormat texture))
      (Fails disp held c old) := by
  unfold completeImg
  refine Early.Triple.gets ?_
  rintro s rfl
  refine Early.Triple.cond (fun hcompleted => Early.Triple.ret _ ?_) fun hcompleted => ?_
  · rintro s rfl
    obtain ⟨texture, htexture⟩ := Option.isSome_iff_exists.mp hcompleted.1
    refine ⟨texture, ?_, fun _ => htexture, fun hnot => absurd hcompleted hnot, fun hdummy =>
      hs₀.images id texture htexture (hcompleted.2.trans hdummy)⟩
    have himg : ({ s.images id with captureTexture := some texture, dummy } : ImgD3d Px) = s.images id := by
      rw [← htexture, ← hcompleted.2]
    rw [himg, DdupVram.setImage, Function.update_eq_self]
  have hfree : id ∉ held.map Prod.fst := fun hmem => hcompleted (hheld hmem)
  refine Early.Triple.cond (fun hunknown => ?_) fun _ => ?_
  · rcases hformat with hdummy | hknown
    · rw [hdummy] at hunknown
      cases hunknown.1
    · exact absurd hunknown.2 hknown
  refine Early.Triple.bind (Q := fun _ t => Unchanged held t) ?_ fun _ => ?_
  · exact Early.Triple.update fun _ _ => hs₀.unchanged.setImage fun hmem => absurd hmem hfree
  refine Early.Triple.cond (fun _ => Early.Triple.update fun t _ => ?_) fun hfails =>
    Early.Triple.raise _ fun t ht => Fails.error (.createImage id) ht (hcall hcompleted) hfails
  refine ⟨_, rfl, fun hcomp => absurd hcomp hcompleted, fun _ => rfl, fun hdummy => ?_⟩
  have hknown : s.captureFormat ≠ formatUnknown := hformat.resolve_left (by rw [hdummy]; exact Bool.false_ne_true)
  exact ⟨rfl, rfl, if_neg hknown, hknown⟩

/-- The same for `get_locked_d3d_img`. -/
theorem getLockedD3dImg_triple (hheld : id ∈ held.map Prod.fst → Completed s₀ id dummy)
    (hcall : c.pull (held.map Prod.fst) = some id ∨ old.lastFrame = .image id ∧ Completed s₀ id dummy)
    (hs₀ : Sound disp held s₀) (hformat : dummy = true ∨ s₀.captureFormat ≠ formatUnknown) :
    Early.Triple (fun s => s = s₀) (getLockedD3dImg gpu disp c id dummy)
      (fun _ s => ∃ texture, s = filled s₀ id dummy texture ∧
        (Completed s₀ id dummy → (s₀.images id).captureTexture = some texture) ∧
        (¬Completed s₀ id dummy → texture.data = gpu.created) ∧
        (dummy = false → Fits disp s₀.captureFormat texture))
      (Fails disp held c old) := by
  unfold getLockedD3dImg
  have hcreate : ¬Completed s₀ id dummy → c.pull (held.map Prod.fst) = some id := fun hnot =>
    hcall.resolve_right fun hlast => hnot hlast.2
  refine Early.Triple.bind (completeImg_triple hheld hcreate hs₀ hformat) fun _ => ?_
  refine Early.Triple.cond (fun _ => Early.Triple.update ?_) fun hfails => Early.Triple.raise _ ?_
  · rintro _ ⟨texture, rfl, h⟩
    refine ⟨texture, ?_, h⟩
    simp [filled, DdupVram.setImage]
  · rintro _ ⟨texture, rfl, hcompleted, -, -⟩
    exact Fails.error (.lock id) (hs₀.unchanged.setImage fun hmem => (hcompleted (hheld hmem)).symm)
      (hcall.imp_right And.left) hfails

theorem inUse_of_not_image {s : DdupVram Px} (h : ∀ id, s.lastFrame ≠ .image id) (used : List ℕ) :
    s.inUse used = used := by
  unfold DdupVram.inUse
  split
  next id hlast => exact absurd hlast (h id)
  next => rfl

theorem not_held_of_not_inUse {s : DdupVram Px} {used : List ℕ} (h : id ∉ s.inUse used) : id ∉ used := by
  intro hmem
  unfold DdupVram.inUse at h
  split at h
  · exact h (List.mem_cons_of_mem _ hmem)
  · exact h hmem

/-- The image that is pulled is not in use. -/
theorem pullFreeImage_triple (hpull : ∀ used, ∀ id ∈ c.pull used, id ∉ used) (hs₀ : Unchanged held s₀)
    (hlast : ∀ id, s₀.lastFrame ≠ .image id) :
    Early.Triple (fun s => s = s₀) (pullFreeImage (held.map Prod.fst) c)
      (fun id s => s = s₀ ∧ id ∉ s₀.inUse (held.map Prod.fst) ∧ c.pull (held.map Prod.fst) = some id)
      (Fails disp held c old) := by
  unfold pullFreeImage
  refine Early.Triple.gets ?_
  rintro s rfl
  rw [inUse_of_not_image hlast]
  cases hid : c.pull (held.map Prod.fst) with
  | none =>
    refine Early.Triple.raise _ ?_
    rintro _ rfl
    exact ⟨hs₀, Or.inr hid⟩
  | some id =>
    refine Early.Triple.ret _ ?_
    rintro _ rfl
    exact ⟨rfl, hpull _ id hid, rfl⟩

/-- A surface into which the picture can be copied. -/
theorem createSurface_triple (hs₀ : Sound disp held s₀) (hknown : s₀.captureFormat ≠ formatUnknown)
    (hcursor : c.cursorVisible = true) :
    Early.Triple (fun s => s = s₀) (createSurface gpu disp c)
      (fun surface s => Fits disp s.captureFormat surface ∧ Sound disp held s ∧ s.captureFormat = s₀.captureFormat ∧
        ∀ invert, s.cursor invert = s₀.cursor invert)
      (Fails disp held c old) := by
  unfold createSurface
  refine Early.Triple.gets ?_
  rintro s rfl
  cases hold : s.oldSurface with
  | some surface =>
    refine Early.Triple.bind (Q := fun _ t => t = { s with oldSurface := none }) (Early.Triple.update fun _ _ => rfl)
      fun _ => Early.Triple.ret _ ?_
    rintro _ rfl
    refine ⟨hs₀.old surface hold, ⟨hs₀.unchanged, hs₀.images, hs₀.blank, fun _ hnone => ?_⟩, rfl, fun _ => rfl⟩
    cases hnone
  | none =>
    refine Early.Triple.cond (fun _ => Early.Triple.ret _ ?_) fun hfails => Early.Triple.raise _ ?_
    · rintro _ rfl
      exact ⟨⟨rfl, rfl, rfl, hknown⟩, hs₀, rfl, fun _ => rfl⟩
    · rintro _ rfl
      exact Fails.error .createSurface hs₀.unchanged hcursor hfails

theorem Fits.copyResource {dst src : Texture Px} {captureFormat : ℕ} (hdst : Fits disp captureFormat dst)
    (hsrc : Fits disp captureFormat src) :
    Fits disp captureFormat (copyResource dst src) ∧ (copyResource dst src).data = src.data := by
  unfold Dxgi.copyResource
  rw [if_pos ⟨hdst.width.trans hsrc.width.symm, hdst.height.trans hsrc.height.symm,
    hdst.format.trans hsrc.format.symm⟩]
  exact ⟨⟨hdst.width, hdst.height, hdst.format, hdst.known⟩, rfl⟩

/-- A free image is pulled, and a picture copied into it. -/
theorem fillImage_triple {α : Type} {f : ℕ → Snapshot Px α} {Q : α → DdupVram Px → Prop}
    (hpull : ∀ used, ∀ id ∈ c.pull used, id ∉ used) (hs₀ : Sound disp held s₀)
    (hknown : s₀.captureFormat ≠ formatUnknown) (hlast : ∀ id, s₀.lastFrame ≠ .image id)
    (hf : ∀ id, id ∉ s₀.inUse (held.map Prod.fst) → ∀ texture, Fits disp s₀.captureFormat texture →
      Early.Triple (fun s => s = filled s₀ id false texture) (f id) Q (Fails disp held c old)) :
    Early.Triple (fun s => s = s₀)
      (do
        let id ← pullFreeImage (held.map Prod.fst) c
        getLockedD3dImg gpu disp c id false
        f id)
      Q (Fails disp held c old) := by
  refine Early.Triple.bind (pullFreeImage_triple hpull hs₀.unchanged hlast) fun id => ?_
  refine Early.Triple.of_pre ?_
  rintro _ ⟨rfl, hid, hpulled⟩
  have hheld := not_held_of_not_inUse hid
  refine Early.Triple.bind (getLockedD3dImg_triple (fun hmem => absurd hmem hheld) (Or.inl hpulled) hs₀
    (Or.inr hknown)) fun _ => ?_
  refine Early.Triple.of_pre ?_
  rintro _ ⟨texture, rfl, -, -, hfits⟩
  exact hf id hid texture (hfits rfl)

end Images

/-! ### The two switches -/

section Actions

variable {gpu : Gpu Px} {disp : DisplayInfo} {held : List (ℕ × Px)} {c : Surroundings Px} {old : DdupVram Px}
  {s₀ : DdupVram Px} {seen : Seen Px} {src : Option (Texture Px)} {blend : Bool}

/-- The picture that came last is kept. -/
structure Settled (disp : DisplayInfo) (held : List (ℕ × Px)) (seen : Seen Px) (s : DdupVram Px) : Prop where
  sound : Sound disp held s
  keeps : Keeps disp seen.desktop s
  points : Points disp seen s
  known : s.lastFrame = .nothing ↔ s.captureFormat = formatUnknown

/-- The picture is kept in the way that the second switch needs. -/
def OutReady (blend : Bool) (s : DdupVram Px) : OutFrameAction → Prop
  | .forwardLastImg => (∃ id, s.lastFrame = .image id) ∧ blend = false
  | .copyLastSurfaceAndBlendCursor => (∃ surface, s.lastFrame = .surface surface) ∧ blend = true
  | .dummyFallback => s.lastFrame = .nothing

theorem settled_image (hsound : Sound disp held s₀) (hpoints : Points disp seen s₀) {id : ℕ}
    (hid : id ∉ s₀.inUse (held.map Prod.fst)) {texture : Texture Px} (hfits : Fits disp s₀.captureFormat texture)
    (hdesktop : seen.desktop = some texture.data) {oldSurface : Option (Texture Px)} {oldSurfaceTimestamp : ℤ}
    (hold : ∀ surface ∈ oldSurface, Fits disp s₀.captureFormat surface) :
    Settled disp held seen
      { filled s₀ id false texture with oldSurface, oldSurfaceTimestamp, lastFrame := .image id } := by
  have hfilled : Sound disp held (filled s₀ id false texture) :=
    hsound.filled (not_held_of_not_inUse hid) fun _ => hfits
  refine ⟨⟨hfilled.unchanged, hfilled.images, hfilled.blank, hold⟩, ⟨texture, ?_, ?_, hdesktop⟩, hpoints, ?_⟩
  · show ((filled s₀ id false texture).images id).captureTexture = _
    rw [filled_images]
  · show ((filled s₀ id false texture).images id).dummy = _
    rw [filled_images]
  · exact ⟨nofun, fun hunknown => absurd hunknown hfits.known⟩

theorem settled_surface {s : DdupVram Px} (hsound : Sound disp held s) (hpoints : Points disp seen s)
    {texture : Texture Px} (hfits : Fits disp s.captureFormat texture) (hdesktop : seen.desktop = some texture.data) :
    Settled disp held seen { s with lastFrame := .surface texture } :=
  ⟨⟨hsound.unchanged, hsound.images, hsound.blank, hsound.old⟩, ⟨hfits, hdesktop⟩, hpoints, nofun, fun hunknown =>
    absurd hunknown hfits.known⟩

theorem copySrcToImg_triple (hpull : ∀ used, ∀ id ∈ c.pull used, id ∉ used) (hsound : Sound disp held s₀)
    (hpoints : Points disp seen s₀) {texture : Texture Px} (hfits : Fits disp s₀.captureFormat texture)
    (hdesktop : seen.desktop = some texture.data) : Early.Triple (fun s => s = s₀)
      (doLastFrameAction gpu disp (held.map Prod.fst) c (some texture) .copySrcToImg)
      (fun _ s => Settled disp held seen s ∧ ∃ id, s.lastFrame = .image id) (Fails disp held c old) := by
  unfold doLastFrameAction
  refine Early.Triple.bind (Q := fun _ s => s = { s₀ with lastFrame := .nothing }) (Early.Triple.update ?_) fun _ => ?_
  · rintro _ rfl
    rfl
  have hsound' : Sound disp held { s₀ with lastFrame := .nothing } :=
    ⟨hsound.unchanged, hsound.images, hsound.blank, hsound.old⟩
  refine fillImage_triple hpull hsound' hfits.known nofun fun id hid dst hdst => Early.Triple.update ?_
  rintro _ rfl
  obtain ⟨hcopy, hdata⟩ := hdst.copyResource hfits
  rw [paint_filled]
  exact ⟨settled_image hsound' hpoints hid hcopy (by rw [hdata, hdesktop]) hsound.old, id, rfl⟩

theorem replaceSurfaceWithImg_triple (hpull : ∀ used, ∀ id ∈ c.pull used, id ∉ used) (hsound : Sound disp held s₀)
    (hpoints : Points disp seen s₀) {surface : Texture Px} (hlast : s₀.lastFrame = .surface surface)
    (hfits : Fits disp s₀.captureFormat surface) (hdesktop : seen.desktop = some surface.data) :
    Early.Triple (fun s => s = s₀) (doLastFrameAction gpu disp (held.map Prod.fst) c src .replaceSurfaceWithImg)
      (fun _ s => Settled disp held seen s ∧ ∃ id, s.lastFrame = .image id) (Fails disp held c old) := by
  unfold doLastFrameAction
  refine Early.Triple.gets ?_
  rintro s rfl
  simp only [hlast]
  have hnot : ∀ id, s.lastFrame ≠ .image id := fun id himage => by cases hlast.symm.trans himage
  refine fillImage_triple hpull hsound hfits.known hnot fun id hid dst hdst => Early.Triple.update ?_
  rintro _ rfl
  obtain ⟨hcopy, hdata⟩ := hdst.copyResource hfits
  rw [paint_filled]
  exact ⟨settled_image hsound hpoints hid hcopy (by rw [hdata, hdesktop]) fun old hold =>
    Option.some.inj hold ▸ hfits, id, rfl⟩

theorem copySrcToSurface_triple (hcursor : c.cursorVisible = true) {desktop : Option Px}
    (hsound : Sound disp held s₀) (hkeeps : Keeps disp desktop s₀)
    (hpoints : Points disp seen s₀) {texture : Texture Px} (hfits : Fits disp s₀.captureFormat texture)
    (hdesktop : seen.desktop = some texture.data) : Early.Triple (fun s => s = s₀)
      (doLastFrameAction gpu disp (held.map Prod.fst) c (some texture) .copySrcToSurface)
      (fun _ s => Settled disp held seen s ∧ ∃ surface, s.lastFrame = .surface surface)
      (Fails disp held c old) := by
  have hnew : Early.Triple (fun s => s = s₀)
      (do
        set { s₀ with lastFrame := .nothing }
        let surface ← createSurface gpu disp c
        modify fun s => { s with lastFrame := .surface (copyResource surface texture) })
      (fun _ s => Settled disp held seen s ∧ ∃ surface, s.lastFrame = .surface surface)
      (Fails disp held c old) := by
    refine Early.Triple.bind (Q := fun _ s => s = { s₀ with lastFrame := .nothing })
      (Early.Triple.update fun _ _ => rfl) fun _ => ?_
    have hsound' : Sound disp held { s₀ with lastFrame := .nothing } :=
      ⟨hsound.unchanged, hsound.images, hsound.blank, hsound.old⟩
    refine Early.Triple.bind (createSurface_triple hsound' hfits.known hcursor) fun surface => Early.Triple.update ?_
    rintro s ⟨hsurface, hsound, hformat, hcursor⟩
    have hformat' : s.captureFormat = s₀.captureFormat := hformat
    obtain ⟨hcopy, hdata⟩ := hsurface.copyResource (hformat' ▸ hfits)
    exact ⟨settled_surface hsound (fun invert => (hcursor invert).trans (hpoints invert)) hcopy
      (by rw [hdata, hdesktop]), _, rfl⟩
  unfold doLastFrameAction
  refine Early.Triple.gets ?_
  rintro s rfl
  cases hlast : s.lastFrame with
  | nothing | image id => exact hnew
  | surface surface =>
    unfold Keeps at hkeeps
    rw [hlast] at hkeeps
    obtain ⟨hcopy, hdata⟩ := hkeeps.1.copyResource hfits
    exact Early.Triple.update fun _ _ => ⟨settled_surface hsound hpoints hcopy (by rw [hdata, hdesktop]), _, rfl⟩

theorem replaceImgWithSurface_triple (hcursor : c.cursorVisible = true) (hsound : Sound disp held s₀)
    (hpoints : Points disp seen s₀) (hkeeps : Keeps disp seen.desktop s₀) {id : ℕ} (hlast : s₀.lastFrame = .image id)
    (hold : old.lastFrame = .image id) :
    Early.Triple (fun s => s = s₀) (doLastFrameAction gpu disp (held.map Prod.fst) c src .replaceImgWithSurface)
      (fun _ s => Settled disp held seen s ∧ ∃ surface, s.lastFrame = .surface surface)
      (Fails disp held c old) := by
  unfold Keeps at hkeeps
  rw [hlast] at hkeeps
  obtain ⟨texture, htexture, hdummy, hdesktop⟩ := hkeeps
  have hfits := hsound.images id texture htexture hdummy
  have hcompleted : Completed s₀ id false := ⟨by rw [htexture]; rfl, hdummy⟩
  unfold doLastFrameAction
  refine Early.Triple.gets ?_
  rintro s rfl
  simp only [hlast]
  -- the image is complete, so it stays as it is
  refine Early.Triple.bind (getLockedD3dImg_triple (fun _ => hcompleted) (Or.inr ⟨hold, hcompleted⟩) hsound
    (Or.inr hfits.known)) fun _ =>
    Early.Triple.gets ?_
  rintro _ ⟨texture', rfl, hsame, -, -⟩
  obtain rfl := Option.some.inj (htexture.symm.trans (hsame hcompleted))
  have hlocked : Sound disp held (filled s id false texture) := hsound.setImage (fun _ => htexture.symm)
    (fun _ ht _ => Option.some.inj ht ▸ hfits) nofun
  have himage : ((filled s id false texture).images id).captureTexture = some texture := by rw [filled_images]
  rw [himage]
  refine Early.Triple.bind (Q := fun _ t => t = { filled s id false texture with lastFrame := .nothing })
    (Early.Triple.update ?_) fun _ => ?_
  · rintro _ rfl
    rfl
  have hsound' : Sound disp held { filled s id false texture with lastFrame := .nothing } :=
    ⟨hlocked.unchanged, hlocked.images, hlocked.blank, hlocked.old⟩
  refine Early.Triple.bind (createSurface_triple hsound' hfits.known hcursor) fun surface => Early.Triple.update ?_
  rintro t ⟨hsurface, hsound, hformat, hcursor⟩
  have hformat' : t.captureFormat = s.captureFormat := hformat
  obtain ⟨hcopy, hdata⟩ := hsurface.copyResource (hformat' ▸ hfits)
  exact ⟨settled_surface hsound (fun invert => (hcursor invert).trans (hpoints invert)) hcopy
    (by rw [hdata, hdesktop]), _, rfl⟩

/-- The first switch keeps the picture that came last. -/
theorem doLastFrameAction_triple (hpull : ∀ used, ∀ id ∈ c.pull used, id ∉ used)
    (h : Sourced disp held c old seen src s₀)
    (hcursor : blend = true → c.cursorVisible = true) : Early.Triple (fun s => s = s₀)
      (doLastFrameAction gpu disp (held.map Prod.fst) c src (actions s₀ src.isSome blend).1)
      (fun _ s => Settled disp held (seen.see c) s ∧ OutReady blend s (actions s₀ src.isSome blend).2)
      (Fails disp held c old) := by
  unfold actions
  by_cases hunknown : s₀.captureFormat = formatUnknown
  · rw [if_pos hunknown]
    obtain ⟨hnothing, rfl⟩ := h.unknown hunknown
    refine Early.Triple.ret _ ?_
    rintro _ rfl
    exact ⟨⟨h.sound, by rw [(h.same rfl).1]; exact h.keeps, h.points, fun _ => hunknown, fun _ => hnothing⟩, hnothing⟩
  rw [if_neg hunknown]
  cases src with
  | some texture =>
    obtain ⟨hfits, hdesktop⟩ := h.source texture rfl
    cases blend with
    | true =>
      exact (copySrcToSurface_triple (hcursor rfl) h.sound h.keeps h.points hfits hdesktop).conseq (fun _ hs => hs)
        fun _ _ hs => ⟨hs.1, hs.2, rfl⟩
    | false =>
      exact (copySrcToImg_triple hpull h.sound h.points hfits hdesktop).conseq (fun _ hs => hs)
        fun _ _ hs => ⟨hs.1, hs.2, rfl⟩
  | none =>
    obtain ⟨hdesktop, hknown⟩ := h.same rfl
    have hkeeps : Keeps disp (seen.see c).desktop s₀ := by
      rw [hdesktop]
      exact h.keeps
    have hstays : s₀.lastFrame ≠ .nothing → Settled disp held (seen.see c) s₀ := fun hne =>
      ⟨h.sound, hkeeps, h.points, fun hnothing => absurd hnothing hne, fun heq => absurd heq hunknown⟩
    cases hlast : s₀.lastFrame with
    | nothing => exact absurd (hknown hlast) hunknown
    | image id =>
      cases blend with
      | true =>
        exact (replaceImgWithSurface_triple (hcursor rfl) h.sound h.points hkeeps hlast
          (h.last.symm.trans hlast)).conseq (fun _ hs => hs) fun _ _ hs => ⟨hs.1, hs.2, rfl⟩
      | false =>
        refine Early.Triple.ret _ ?_
        rintro _ rfl
        exact ⟨hstays (by rw [hlast]; simp), ⟨id, hlast⟩, rfl⟩
    | surface surface =>
      cases blend with
      | true =>
        refine Early.Triple.ret _ ?_
        rintro _ rfl
        exact ⟨hstays (by rw [hlast]; simp), ⟨surface, hlast⟩, rfl⟩
      | false =>
        unfold Keeps at hkeeps
        rw [hlast] at hkeeps
        exact (replaceSurfaceWithImg_triple hpull h.sound h.points hlast hkeeps.1 hkeeps.2).conseq (fun _ hs => hs)
          fun _ _ hs => ⟨hs.1, hs.2, rfl⟩

/-- The pointer is visible. -/
def Seen.visible (seen : Seen Px) : Bool := (seen.position.map fun p => p.2.2).getD false

/-- The texture is drawn over as it should be. -/
theorem blendCursor_filled (hpoints : Points disp seen s₀) (hvisible : seen.visible = true) (id : ℕ) (dummy : Bool)
    (texture : Texture Px) : blendCursor gpu id (filled s₀ id dummy texture) =
      filled s₀ id dummy { texture with data := seen.picture gpu disp true texture.data } := by
  unfold blendCursor
  rw [paint_filled]
  have halpha : (filled s₀ id dummy texture).cursorAlpha = cursorAt disp seen.position (seen.texture false) :=
    hpoints false
  have hxor : (filled s₀ id dummy texture).cursorXor = cursorAt disp seen.position (seen.texture true) := hpoints true
  rw [halpha, hxor]
  unfold Seen.visible at hvisible
  unfold Seen.picture
  cases hposition : seen.position with
  | none =>
    rw [hposition] at hvisible
    cases hvisible
  | some p =>
    obtain ⟨x, y, visible⟩ := p
    rw [hposition] at hvisible
    obtain rfl : visible = true := hvisible
    rw [blendCursorImage_cursorAt, blendCursorImage_cursorAt]
    rfl

theorem picture_of_hidden {cursorVisible : Bool} (h : (seen.visible && cursorVisible) = false) (px : Px) :
    seen.picture gpu disp cursorVisible px = px := by
  unfold Seen.visible at h
  unfold Seen.picture
  split
  next x y hposition =>
    rw [hposition] at h
    rw [if_neg (by simpa using h)]
  next => rfl

/-- An image shows what it should. -/
def ShowsIn (gpu : Gpu Px) (disp : DisplayInfo) (seen : Seen Px) (cursorVisible : Bool) (id : ℕ) (s : DdupVram Px) :
    Prop :=
  ∃ texture, (s.images id).captureTexture = some texture ∧ Shows gpu disp seen cursorVisible texture.data

theorem Settled.filled (h : Settled disp held seen s₀) {id : ℕ} (hid : id ∉ s₀.inUse (held.map Prod.fst))
    {dummy : Bool} {texture : Texture Px} (hfits : dummy = false → Fits disp s₀.captureFormat texture) :
    Settled disp held seen (filled s₀ id dummy texture) := by
  refine ⟨h.sound.filled (not_held_of_not_inUse hid) hfits, h.keeps.congr rfl rfl fun other hlast => ?_, h.points,
    h.known⟩
  have hother : other ≠ id := by
    rintro rfl
    unfold DdupVram.inUse at hid
    rw [hlast] at hid
    exact hid List.mem_cons_self
  have himages : (Dxgi.filled s₀ id dummy texture).images other = s₀.images other :=
    Function.update_of_ne hother _ _
  rw [himages]
  exact ⟨rfl, rfl⟩

/-- The second switch hands out an image that shows what it should. -/
theorem doOutFrameAction_triple (hpull : ∀ used, ∀ id ∈ c.pull used, id ∉ used) (h : Settled disp held seen s₀)
    (hblend : blend = (seen.visible && c.cursorVisible)) {action : OutFrameAction} (hready : OutReady blend s₀ action) :
    Early.Triple (fun s => s = s₀) (doOutFrameAction gpu disp (held.map Prod.fst) c blend action)
      (fun id s => Settled disp held seen s ∧ ShowsIn gpu disp seen c.cursorVisible id s)
      (Fails disp held c old) := by
  have hkeeps := h.keeps
  unfold Keeps at hkeeps
  unfold doOutFrameAction
  cases action with
  | forwardLastImg =>
    obtain ⟨⟨id, hlast⟩, hhidden⟩ := hready
    rw [hlast] at hkeeps
    obtain ⟨texture, htexture, -, hdesktop⟩ := hkeeps
    refine Early.Triple.gets ?_
    rintro s rfl
    simp only [hlast]
    refine Early.Triple.ret _ ?_
    rintro _ rfl
    refine ⟨h, texture, htexture, texture.data, ?_, ?_⟩
    · rw [picture_of_hidden (hblend.symm.trans hhidden)]
    · rw [hdesktop]
  | copyLastSurfaceAndBlendCursor =>
    obtain ⟨⟨surface, hlast⟩, rfl⟩ := hready
    rw [hlast] at hkeeps
    obtain ⟨hfits, hdesktop⟩ := hkeeps
    obtain ⟨hvisible, hcursor⟩ := Bool.and_eq_true_iff.mp hblend.symm
    refine Early.Triple.gets ?_
    rintro s rfl
    simp only [hlast, if_true]
    have hnot : ∀ id, s.lastFrame ≠ .image id := fun id himage => by cases hlast.symm.trans himage
    refine fillImage_triple hpull h.sound hfits.known hnot fun id hid dst hdst => ?_
    obtain ⟨hcopy, hdata⟩ := hdst.copyResource hfits
    refine Early.Triple.bind (Q := fun _ t => t = filled s id false
      { copyResource dst surface with data := seen.picture gpu disp true surface.data }) (Early.Triple.update ?_)
      fun _ => Early.Triple.ret _ ?_
    · rintro _ rfl
      rw [paint_filled, blendCursor_filled h.points hvisible, hdata]
    · rintro _ rfl
      refine ⟨h.filled hid fun _ => ⟨hcopy.width, hcopy.height, hcopy.format, hcopy.known⟩,
        { copyResource dst surface with data := seen.picture gpu disp true surface.data }, by rw [filled_images],
        surface.data, by rw [hcursor], by rw [hdesktop]⟩
  | dummyFallback =>
    have hlast : s₀.lastFrame = .nothing := hready
    rw [hlast] at hkeeps
    have hnot : ∀ id, s₀.lastFrame ≠ .image id := fun id himage => by cases hlast.symm.trans himage
    refine Early.Triple.bind (pullFreeImage_triple hpull h.sound.unchanged hnot) fun id => Early.Triple.gets ?_
    rintro s ⟨rfl, hid, hpulled⟩
    have hheld := not_held_of_not_inUse hid
    refine Early.Triple.bind (getLockedD3dImg_triple (fun hmem => absurd hmem hheld) (Or.inl hpulled) h.sound
      (Or.inl rfl)) fun _ => ?_
    -- before the cursor is drawn, the image is as it was created, or cleared
    refine Early.Triple.bind (Q := fun _ t => ∃ texture, t = filled s id true texture ∧
      (texture.data = gpu.created ∨ texture.data = gpu.cleared)) (Early.Triple.update ?_) fun _ => ?_
    · rintro _ ⟨texture, rfl, hsame, hnew, -⟩
      split
      · exact ⟨{ texture with data := gpu.cleared }, paint_filled _ _ _ _ _, Or.inr rfl⟩
      next hclear =>
        refine ⟨texture, rfl, Or.inl (hnew fun hcompleted => hclear ?_)⟩
        have hblank : (s.images id).blank = false := by
          apply Bool.eq_false_iff.mpr
          intro hblank
          rw [Completed, h.sound.blank id hblank] at hcompleted
          cases hcompleted.1
        rw [hblank, hcompleted.1]
        rfl
    refine Early.Triple.bind (Q := fun _ t => ∃ texture, t = filled s id true texture ∧
      Shows gpu disp seen c.cursorVisible texture.data) (Early.Triple.update ?_) fun _ => Early.Triple.ret _ ?_
    · rintro _ ⟨texture, rfl, hbase⟩
      split
      next hdrawn =>
        obtain ⟨hvisible, hcursor⟩ := Bool.and_eq_true_iff.mp (hblend.symm.trans hdrawn)
        refine ⟨{ texture with data := seen.picture gpu disp true texture.data },
          blendCursor_filled h.points hvisible id true texture, texture.data, by rw [hcursor], ?_⟩
        rw [hkeeps]
        exact hbase
      next hdrawn =>
        refine ⟨texture, rfl, texture.data, ?_, ?_⟩
        · rw [picture_of_hidden (hblend.symm.trans (Bool.eq_false_iff.mpr hdrawn))]
        · rw [hkeeps]
          exact hbase
    · rintro _ ⟨texture, rfl, hshows⟩
      exact ⟨h.filled hid nofun, texture, by rw [filled_images], hshows⟩

end Actions

end MidnightSun.Platf.Dxgi
