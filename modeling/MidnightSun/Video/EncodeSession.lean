import MidnightSun.Nvenc.Session

/-!
# Encode sessions (src/video.cpp)

`encode_session_t` has two implementations: with avcodec every invalidation becomes a key frame, with NVENC it goes to
`nvenc_base`.  Each stands here with the frames that its encoder keeps.  The specs of `invalidateRefFrames` and
`encode` say the same of both, and are all that the encode loop needs.
-/

namespace MidnightSun.Video

open Lib Nvenc

/-- A session and its hardware.  `keyFrame` is the picture type of the avcodec frame, forced or not. -/
inductive EncodeSession where
  | avcodec (keyFrame : Bool) (usable : List UInt64) (lastIndex : UInt64)
  | nvenc (hardware : Hardware)

namespace EncodeSession

/-- The next frame is a forced key frame. -/
def forced : EncodeSession → Bool
  | avcodec keyFrame _ _ => keyFrame
  | nvenc h => h.session.forceIdr

/-- The frames that the next one may refer to. -/
def usable : EncodeSession → List UInt64
  | avcodec _ usable _ => usable
  | nvenc h => h.usable

/-- The index of the frame encoded last. -/
def lastIndex : EncodeSession → UInt64
  | avcodec _ _ lastIndex => lastIndex
  | nvenc h => h.lastIndex

def isAvcodec : EncodeSession → Bool
  | avcodec .. => true
  | nvenc _ => false

/-- `request_idr_frame`. -/
def requestIdrFrame : EncodeSession → EncodeSession
  | avcodec _ usable lastIndex => avcodec true usable lastIndex
  | nvenc h => nvenc { h with session := h.session.requestIdrFrame }

/-- `request_normal_frame`. -/
def requestNormalFrame : EncodeSession → EncodeSession
  | avcodec _ usable lastIndex => avcodec false usable lastIndex
  | nvenc h => nvenc { h with session := h.session.requestNormalFrame }

/-- `invalidate_ref_frames`, with the answers of the NVENC calls. -/
def invalidateRefFrames (firstFrame lastFrame : Int64) (answers : List Bool) : EncodeSession → Option EncodeSession
  | avcodec _ usable lastIndex => some (avcodec true usable lastIndex)
  | nvenc h => (RfiOp.run h (.invalidateRefFrames firstFrame lastFrame answers)).map nvenc

/-- `encode`, with whether it returns 0.  For avcodec `encodePicture` is `avcodec_send_frame` and `lockBitstream` the
loop of `avcodec_receive_packet`. -/
def encode (frameNr : UInt64) (calls : EncodeCalls) (refs : List UInt64) : EncodeSession → Option (EncodeSession × Bool)
  | avcodec keyFrame usable lastIndex =>
    let picture : Option Picture :=
      if calls.encodePicture then some { inputTimeStamp := frameNr, forceIdr := keyFrame } else none
    if lastIndex < frameNr ∧ Promised usable picture calls.idr refs then
      if calls.encodePicture then
        some (avcodec keyFrame (refStep usable (.encode frameNr calls.idr)) frameNr, calls.lockBitstream)
      else some (avcodec keyFrame usable lastIndex, false)
    else none
  | nvenc h =>
    (RfiOp.run h (.encodeFrame frameNr calls refs)).map fun h' =>
      (nvenc h', (h.session.encodeFrame frameNr calls).2.any fun frame => !frame.data.isEmpty)

end EncodeSession

/-- The indices that a message names. -/
def Named (firstFrame lastFrame : Int64) (j : UInt64) : Prop :=
  firstFrame.toInt ≤ j.toNat ∧ (j.toNat : Int) ≤ lastFrame.toInt

instance (firstFrame lastFrame : Int64) (j : UInt64) : Decidable (Named firstFrame lastFrame j) :=
  inferInstanceAs (Decidable (_ ∧ _))

/-- The invariant of an encoder between the iterations of the encode loop. -/
def EncodeSession.Inv : EncodeSession → Prop
  | .avcodec .. => True
  | .nvenc h => RfiInv h ∧ ∀ e, h.session.nvenc = some e → e.lastEncodedFrameIndex = h.lastIndex

/-! ### Signed and unsigned indices -/

theorem toNat_toUInt64_eq {x : Int64} (h : 0 ≤ x.toInt) : (x.toUInt64.toNat : Int) = x.toInt := by
  have hcond := x.toBitVec.toInt_eq_toNat_cond
  have hnat : x.toUInt64.toNat = x.toBitVec.toNat := rfl
  have hint : x.toInt = x.toBitVec.toInt := rfl
  have hlt := x.toBitVec.isLt
  omega

theorem first_le_of_named {firstFrame lastFrame : Int64} {j : UInt64} (hfirst : 0 ≤ firstFrame.toInt)
    (hj : Named firstFrame lastFrame j) : firstFrame.toUInt64 ≤ j := by
  have := toNat_toUInt64_eq hfirst
  have := hj.1
  rw [UInt64.le_iff_toNat_le]
  omega

theorem le_last_of_named {firstFrame lastFrame : Int64} {j : UInt64} (hj : Named firstFrame lastFrame j) :
    j ≤ lastFrame.toUInt64 := by
  have hlast : 0 ≤ lastFrame.toInt := by have := hj.2; omega
  have := toNat_toUInt64_eq hlast
  have := hj.2
  rw [UInt64.le_iff_toNat_le]
  omega

/-! ### Specs -/

variable {c c' : EncodeSession}

@[simp] theorem forced_requestIdrFrame (c : EncodeSession) : c.requestIdrFrame.forced = true := by cases c <;> rfl

@[simp] theorem usable_requestIdrFrame (c : EncodeSession) : c.requestIdrFrame.usable = c.usable := by cases c <;> rfl

@[simp] theorem lastIndex_requestIdrFrame (c : EncodeSession) : c.requestIdrFrame.lastIndex = c.lastIndex := by
  cases c <;> rfl

@[simp] theorem usable_requestNormalFrame (c : EncodeSession) : c.requestNormalFrame.usable = c.usable := by
  cases c <;> rfl

@[simp] theorem lastIndex_requestNormalFrame (c : EncodeSession) : c.requestNormalFrame.lastIndex = c.lastIndex := by
  cases c <;> rfl

theorem inv_requestIdrFrame (hI : c.Inv) : c.requestIdrFrame.Inv := by
  cases c with
  | avcodec => trivial
  | nvenc h => exact ⟨{ hI.1 with range := fun _ _ => Or.inl rfl }, hI.2⟩

/-- `invalidate_ref_frames`: a frame that the message names is out of use afterwards, or the next frame is forced.
With NVENC this needs a first frame that is not negative. -/
theorem invalidateRefFrames_spec {firstFrame lastFrame : Int64} {answers : List Bool} (hI : c.Inv)
    (h : c.invalidateRefFrames firstFrame lastFrame answers = some c') :
    c'.Inv ∧ c'.lastIndex = c.lastIndex ∧ c'.isAvcodec = c.isAvcodec ∧ (c.forced = true → c'.forced = true) ∧
      c'.usable ⊆ c.usable ∧
      ((0 ≤ firstFrame.toInt ∨ c.isAvcodec = true) → ∀ j, Named firstFrame lastFrame j → j ≤ c.lastIndex →
        c'.forced = true ∨ j ∉ c'.usable) := by
  cases c with
  | avcodec keyFrame usable lastIndex =>
    obtain rfl := Option.some.inj h
    exact ⟨trivial, rfl, rfl, fun _ => rfl, fun _ hr => hr, fun _ _ _ _ => Or.inl rfl⟩
  | nvenc hw =>
    obtain ⟨hw', hstep, rfl⟩ := Option.map_eq_some_iff.mp h
    obtain ⟨hinv, hlast⟩ := hI
    have hg : ForcedIsEncoded hw (.invalidateRefFrames firstFrame lastFrame answers) := trivial
    have hinv' : RfiInv hw' := rfiInv_step hinv hg hstep
    have hout := outOfUse_of_invalidate hinv hstep
    rcases Nvenc.invalidateRefFrames_spec hstep with ⟨hnone, hsession, hsub, hindex⟩ |
      ⟨e, e', done, removed, he, hcall, rfl⟩
    · have habsent : ∀ e, hw'.session.nvenc ≠ some e := by simp [hsession, hnone]
      refine ⟨⟨hinv', fun e he => absurd he (habsent e)⟩, hindex, rfl, fun hf => ?_, hsub, fun _ j _ _ => ?_⟩
      · exact (congrArg NvencEncodeSession.forceIdr hsession).trans hf
      · right
        have hempty : hw'.usable = [] := List.subset_nil.mp (hinv.unused hnone ▸ hsub)
        simp [EncodeSession.usable, hempty]
    · obtain ⟨hkeep, -, hcases⟩ := invalidateRefFrames_cases hcall
      refine ⟨⟨hinv', ?_⟩, rfl, rfl, ?_, refStep_invalidate_subset _ _, ?_⟩
      · intro e'' he''
        cases he''
        exact hkeep.trans (hlast e he)
      · intro hf
        have hforce : hw.session.forceIdr = true := hf
        simp [EncodeSession.forced, hforce]
      · rintro (hfirst | hav) j hj hle
        · refine hout.imp_right fun hclear hmem => hclear j hmem ⟨first_le_of_named hfirst hj, ?_⟩
          -- the message ends within the range that is done, or that range ends with the last frame
          have hupTo : hw.doneUpTo firstFrame lastFrame = e.doneUpTo firstFrame.toUInt64 lastFrame.toUInt64 := by
            simp [Hardware.doneUpTo, he]
          rw [hupTo]
          unfold NvencBase.doneUpTo
          split
          next hdone =>
            simp only [NvencBase.alreadyDone, Bool.and_eq_true, decide_eq_true_eq] at hdone
            exact UInt64.le_trans (le_last_of_named hj) hdone.2
          next =>
            rw [hlast e he]
            exact hle
        · cases hav

/-- `encode` that returns 0, with the `request_normal_frame` after it: the index is new, a forced frame is an IDR frame,
and what stays usable is the frame itself and, unless it is an IDR frame, what was usable before. -/
theorem encode_spec {frameNr : UInt64} {calls : EncodeCalls} {refs : List UInt64} (hI : c.Inv)
    (h : c.encode frameNr calls refs = some (c', true)) :
    c'.requestNormalFrame.Inv ∧ c.lastIndex < frameNr ∧ c'.lastIndex = frameNr ∧
      (c.forced = true → calls.idr = true) ∧ refs ⊆ c.usable ∧
        ∀ r ∈ c'.usable, r = frameNr ∨ (calls.idr = false ∧ r ∈ c.usable) := by
  cases c with
  | avcodec keyFrame usable lastIndex =>
    cases hsent : calls.encodePicture with
    | false =>
      simp only [EncodeSession.encode, hsent, Bool.false_eq_true, if_false] at h
      obtain ⟨-, heq⟩ := of_ite_some h
      cases heq
    | true =>
      simp only [EncodeSession.encode, hsent, if_true] at h
      obtain ⟨⟨hlt, hp⟩, heq⟩ := of_ite_some h
      obtain ⟨rfl, -⟩ := Prod.mk.inj heq
      exact ⟨trivial, hlt, rfl, hp.1, hp.subset, fun r hr => mem_refStep_encode hr⟩
  | nvenc hw =>
    obtain ⟨hw', hstep, heq⟩ := Option.map_eq_some_iff.mp h
    obtain ⟨rfl, hany⟩ := Prod.mk.inj heq
    obtain ⟨frame, hframe, -⟩ := (Option.any_eq_true _ _).mp hany
    have hg : ForcedIsEncoded hw (.encodeFrame frameNr calls refs) := fun _ => by rw [hframe]; rfl
    have hinv' : RfiInv hw' := rfiInv_step hI.1 hg hstep
    obtain ⟨hpic, -⟩ := picture_of_frame hframe
    obtain ⟨hlt, hp, rfl⟩ := encodeFrame_spec hstep
    rw [hpic] at hp
    have hnormal : (hw.session.encodeFrame frameNr calls).1.requestNormalFrame =
        (hw.session.encodeFrame frameNr calls).1 := by
      unfold NvencEncodeSession.encodeFrame at hframe ⊢
      split at hframe
      next => cases hframe
      next => rfl
    refine ⟨?_, hlt, rfl, hp.1, hp.subset, ?_⟩
    · simp only [EncodeSession.requestNormalFrame, EncodeSession.Inv, hnormal]
      exact ⟨hinv', fun e he => lastEncoded_of_frame hframe he⟩
    · intro r hr
      simp only [EncodeSession.usable, Hardware.encoded, hpic] at hr
      exact mem_refStep_encode hr

end MidnightSun.Video
