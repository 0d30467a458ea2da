import Mathlib.Data.List.Basic

/-!
# `nvenc_base` (src/nvenc/nvenc_base.cpp)

`encode_frame` and `invalidate_ref_frames`.  What the NVENC calls return is an argument of each; the picture that was
handed over is a result, for the model of the hardware.
-/

namespace MidnightSun.Nvenc

/-- The part of `encoder_params` and `encoder_state` that encoding and invalidating frames uses. -/
structure NvencBase where
  /-- `encoder` is not null -/
  encoder : Bool
  rfi : Bool
  refFramesInDpb : UInt32
  /-- `async_event_handle` is not null -/
  asyncEvent : Bool
  lastEncodedFrameIndex : UInt64 := 0
  rfiNeedsConfirmation : Bool := false
  lastRfiRange : UInt64 × UInt64 := (0, 0)
  deriving DecidableEq

/-- `nvenc_encoded_frame`. -/
structure EncodedFrame where
  data : List UInt8
  frameIndex : UInt64
  idr : Bool
  afterRefFrameInvalidation : Bool
  deriving DecidableEq

/-- `NV_ENC_PIC_PARAMS` as far as it is not constant: `inputTimeStamp`, and `NV_ENC_PIC_FLAG_FORCEIDR`. -/
structure Picture where
  inputTimeStamp : UInt64
  forceIdr : Bool
  deriving DecidableEq

/-- What the calls of `encode_frame` return: which of them succeed, and what the locked bitstream holds. -/
structure EncodeCalls where
  synchronizeInputBuffer : Bool := true
  mapInputResource : Bool := true
  encodePicture : Bool := true
  waitForAsyncEvent : Bool := true
  lockBitstream : Bool := true
  data : List UInt8
  /-- `pictureType == NV_ENC_PIC_TYPE_IDR` -/
  idr : Bool
  deriving DecidableEq

/-- The picture that `nvEncEncodePicture` takes, if `encode_frame` gets so far. -/
def NvencBase.picture (e : NvencBase) (frameIndex : UInt64) (forceIdr : Bool) (calls : EncodeCalls) : Option Picture :=
  if e.encoder && calls.synchronizeInputBuffer && calls.mapInputResource && calls.encodePicture then
    some { inputTimeStamp := frameIndex, forceIdr }
  else none

/-- `encode_frame`; the result `none` is the empty frame. -/
def NvencBase.encodeFrame (e : NvencBase) (frameIndex : UInt64) (forceIdr : Bool) (calls : EncodeCalls) :
    NvencBase × Option EncodedFrame :=
  match e.picture frameIndex forceIdr calls with
  | none => (e, none)
  | some picture =>
    if e.asyncEvent && !calls.waitForAsyncEvent then (e, none)
    else if !calls.lockBitstream then (e, none)
    else
      ({ e with rfiNeedsConfirmation := false, lastEncodedFrameIndex := frameIndex },
        some {
          data := calls.data
          frameIndex := picture.inputTimeStamp
          idr := calls.idr
          afterRefFrameInvalidation := e.rfiNeedsConfirmation })

/-- The loop of `invalidate_ref_frames` from the index `i`, with the answers of the successive calls: its result, and
the frames that were invalidated.  `none` if it goes on beyond the answers. -/
def invalidateLoop (lastFrame : UInt64) : UInt64 → List Bool → Option (Bool × List UInt64)
  | i, [] => if i ≤ lastFrame then none else some (true, [])
  | i, ok :: answers =>
    if i ≤ lastFrame then
      if ok then (invalidateLoop lastFrame (i + 1) answers).map fun r => (r.1, i :: r.2) else some (false, [])
    else some (true, [])

/-- The request lies inside `last_rfi_range`. -/
def NvencBase.alreadyDone (e : NvencBase) (firstFrame lastFrame : UInt64) : Bool :=
  e.lastRfiRange.1 ≤ firstFrame && lastFrame ≤ e.lastRfiRange.2

/-- `invalidate_ref_frames`, with its result and the frames that were invalidated. -/
def NvencBase.invalidateRefFrames (e : NvencBase) (firstFrame lastFrame : UInt64) (answers : List Bool) :
    Option (NvencBase × Bool × List UInt64) :=
  if !e.encoder || !e.rfi then some (e, false, [])
  else if e.alreadyDone firstFrame lastFrame then some (e, true, [])
  else
    let e := { e with rfiNeedsConfirmation := true }
    if lastFrame < firstFrame then some (e, false, [])
    else
      let lastFrame := e.lastEncodedFrameIndex
      let e := { e with lastRfiRange := (firstFrame, lastFrame) }
      if e.refFramesInDpb.toUInt64 ≤ lastFrame - firstFrame + 1 then some (e, false, [])
      else (invalidateLoop lastFrame firstFrame answers).map fun r => (e, r.1, r.2)

/-! ### What the calls do -/

theorem succ_le_of_lt {i j : UInt64} (h : i < j) : i + 1 ≤ j := by grind

/-- A loop that returns `true` has invalidated everything from its index to the last frame. -/
theorem mem_of_invalidateLoop {lastFrame i j : UInt64} {answers : List Bool} {removed : List UInt64}
    (h : invalidateLoop lastFrame i answers = some (true, removed)) (hi : i ≤ j) (hj : j ≤ lastFrame) :
    j ∈ removed := by
  induction answers generalizing i removed with
  | nil =>
    have hle : i ≤ lastFrame := UInt64.le_trans hi hj
    simp [invalidateLoop, hle] at h
  | cons ok answers ih =>
    have hle : i ≤ lastFrame := UInt64.le_trans hi hj
    cases ok with
    | false => simp [invalidateLoop, hle] at h
    | true =>
      simp only [invalidateLoop, hle, if_true, Option.map_eq_some_iff, Prod.mk.injEq] at h
      obtain ⟨⟨done, rest⟩, hrest, rfl, rfl⟩ := h
      by_cases heq : j = i
      · simp [heq]
      · have hlt : i < j := by grind
        exact List.mem_cons_of_mem _ (ih hrest (succ_le_of_lt hlt))

/-- All that `encode_frame` can do to the state: nothing, or it notes the frame. -/
theorem encodeFrame_cases (e : NvencBase) (frameIndex : UInt64) (forceIdr : Bool) (calls : EncodeCalls) :
    e.encodeFrame frameIndex forceIdr calls = (e, none) ∨
      e.picture frameIndex forceIdr calls = some { inputTimeStamp := frameIndex, forceIdr } ∧
        ∃ frame, frame.idr = calls.idr ∧ frame.frameIndex = frameIndex ∧
          e.encodeFrame frameIndex forceIdr calls =
            ({ e with rfiNeedsConfirmation := false, lastEncodedFrameIndex := frameIndex }, some frame) := by
  unfold NvencBase.encodeFrame
  cases hp : e.picture frameIndex forceIdr calls with
  | none => exact Or.inl rfl
  | some picture =>
    obtain rfl : picture = { inputTimeStamp := frameIndex, forceIdr } := by
      unfold NvencBase.picture at hp
      split at hp
      · exact (Option.some.inj hp).symm
      · cases hp
    dsimp only
    split
    · exact Or.inl rfl
    · split
      · exact Or.inl rfl
      · exact Or.inr ⟨rfl, _, rfl, rfl, rfl⟩

/-- The index up to which an answered request is done: the end of the range that it lies in, or the last frame. -/
def NvencBase.doneUpTo (e : NvencBase) (firstFrame lastFrame : UInt64) : UInt64 :=
  if e.alreadyDone firstFrame lastFrame then e.lastRfiRange.2 else e.lastEncodedFrameIndex

/-- All that `invalidate_ref_frames` can do: it refuses and asks for an IDR; or the request lies in the range of an
earlier one; or it invalidates every frame from the first to the last encoded one.  The range it notes ends with the
last encoded frame. -/
theorem invalidateRefFrames_cases {e e' : NvencBase} {firstFrame lastFrame : UInt64} {answers : List Bool}
    {done : Bool} {removed : List UInt64}
    (h : e.invalidateRefFrames firstFrame lastFrame answers = some (e', done, removed)) :
    e'.lastEncodedFrameIndex = e.lastEncodedFrameIndex ∧
      (e'.lastRfiRange = e.lastRfiRange ∨ e'.lastRfiRange = (firstFrame, e.lastEncodedFrameIndex)) ∧
      (done = false ∨
        (done = true ∧ e'.lastRfiRange = e.lastRfiRange ∧ e.lastRfiRange.1 ≤ firstFrame ∧
          lastFrame ≤ e.lastRfiRange.2 ∧ e.doneUpTo firstFrame lastFrame = e.lastRfiRange.2) ∨
        (done = true ∧ firstFrame ≤ lastFrame ∧ e'.lastRfiRange = (firstFrame, e.lastEncodedFrameIndex) ∧
          e.doneUpTo firstFrame lastFrame = e.lastEncodedFrameIndex ∧
          ∀ j, firstFrame ≤ j → j ≤ e.lastEncodedFrameIndex → j ∈ removed)) := by
  unfold NvencBase.invalidateRefFrames at h
  split at h
  · cases h
    exact ⟨rfl, Or.inl rfl, Or.inl rfl⟩
  split at h
  next hdone =>
    cases h
    refine ⟨rfl, Or.inl rfl, Or.inr (Or.inl ⟨rfl, rfl, ?_⟩)⟩
    have hrange := hdone
    simp only [NvencBase.alreadyDone, Bool.and_eq_true, decide_eq_true_eq] at hrange
    exact ⟨hrange.1, hrange.2, by simp [NvencBase.doneUpTo, hdone]⟩
  next hdone =>
    dsimp only at h
    split at h
    · cases h
      exact ⟨rfl, Or.inl rfl, Or.inl rfl⟩
    next hlt =>
      split at h
      · cases h
        exact ⟨rfl, Or.inr rfl, Or.inl rfl⟩
      · obtain ⟨⟨done', removed'⟩, hloop, heq⟩ := Option.map_eq_some_iff.mp h
        cases heq
        refine ⟨rfl, Or.inr rfl, ?_⟩
        cases done' with
        | false => exact Or.inl rfl
        | true =>
          refine Or.inr (Or.inr ⟨rfl, by grind, rfl, by simp [NvencBase.doneUpTo, hdone], ?_⟩)
          intro j hj hlast
          exact mem_of_invalidateLoop hloop hj hlast

end MidnightSun.Nvenc
