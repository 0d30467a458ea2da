import MidnightSun.Lib.References
import MidnightSun.Lib.Run
import MidnightSun.Nvenc.Base

/-!
# Reference frame invalidation over whole runs (src/video.cpp, src/nvenc/nvenc_base.cpp)

`nvenc_encode_session_t` drives one encoder; `Hardware` adds the references that the encoder keeps, as NVENC documents
them: an IDR picture clears them, a forced picture is an IDR picture, and a successful `nvEncInvalidateRefFrames` takes
one frame out.  The invariant is that the range of the last request is clear, or the next frame is forced.
-/

namespace MidnightSun.Nvenc

open Lib

/-- `nvenc_encode_session_t`.  `nvenc` is `none` where `device` or `device->nvenc` is null. -/
structure NvencEncodeSession where
  nvenc : Option NvencBase
  forceIdr : Bool := false
  deriving DecidableEq

namespace NvencEncodeSession

variable (s : NvencEncodeSession)

def requestIdrFrame : NvencEncodeSession := { s with forceIdr := true }

def requestNormalFrame : NvencEncodeSession := { s with forceIdr := false }

/-- `invalidate_ref_frames`, with the frames that were invalidated. -/
def invalidateRefFrames (firstFrame lastFrame : Int64) (answers : List Bool) :
    Option (NvencEncodeSession × List UInt64) :=
  match s.nvenc with
  | none => some (s, [])
  | some e =>
    (e.invalidateRefFrames firstFrame.toUInt64 lastFrame.toUInt64 answers).map fun r =>
      ({ nvenc := some r.1, forceIdr := if r.2.1 then s.forceIdr else true }, r.2.2)

/-- The picture that `encode_frame` hands over. -/
def picture (frameIndex : UInt64) (calls : EncodeCalls) : Option Picture :=
  s.nvenc.bind fun e => e.picture frameIndex s.forceIdr calls

/-- `encode_frame`: whatever comes of it, the next frame is not forced any more. -/
def encodeFrame (frameIndex : UInt64) (calls : EncodeCalls) : NvencEncodeSession × Option EncodedFrame :=
  match s.nvenc with
  | none => (s, none)
  | some e =>
    let r := e.encodeFrame frameIndex s.forceIdr calls
    ({ nvenc := some r.1, forceIdr := false }, r.2)

end NvencEncodeSession

/-! ### The session with its hardware -/

/-- A session, and what the encoder keeps. -/
structure Hardware where
  session : NvencEncodeSession
  /-- the frames that the next one may refer to -/
  usable : List UInt64 := []
  /-- the index of the last `encode_frame` call -/
  lastIndex : UInt64 := 0

/-- The calls, with what NVENC answers.  `refs` are the frames that the encoded picture refers to. -/
inductive RfiOp where
  | encodeFrame (frameIndex : UInt64) (calls : EncodeCalls) (refs : List UInt64)
  | invalidateRefFrames (firstFrame lastFrame : Int64) (answers : List Bool)

/-- What NVENC promises of a picture: it is an IDR picture if it is forced, and refers to usable frames only. -/
def Promised (usable : List UInt64) (picture : Option Picture) (idr : Bool) (refs : List UInt64) : Prop :=
  match picture with
  | none => True
  | some p => (p.forceIdr = true → idr = true) ∧ refs ⊆ if idr then [] else usable

instance (usable : List UInt64) (picture : Option Picture) (idr : Bool) (refs : List UInt64) :
    Decidable (Promised usable picture idr refs) :=
  match picture with
  | none => instDecidableTrue
  | some p => inferInstanceAs (Decidable ((p.forceIdr = true → idr = true) ∧ refs ⊆ if idr then [] else usable))

theorem Promised.subset {usable : List UInt64} {p : Picture} {idr : Bool} {refs : List UInt64}
    (h : Promised usable (some p) idr refs) : refs ⊆ usable := by
  have hrefs := h.2
  split at hrefs
  · exact fun r hr => absurd (hrefs hr) List.not_mem_nil
  · exact hrefs

/-- The references after a call of `encode_frame`: a picture that was taken is kept, also where its bitstream is
lost. -/
def Hardware.encoded (h : Hardware) (picture : Option Picture) (idr : Bool) : List UInt64 :=
  match picture with
  | none => h.usable
  | some p => refStep h.usable (.encode p.inputTimeStamp idr)

/-- One call.  Frame indices increase, from 1. -/
def RfiOp.run (h : Hardware) : RfiOp → Option Hardware
  | .encodeFrame frameIndex calls refs =>
    let picture := h.session.picture frameIndex calls
    if h.lastIndex < frameIndex ∧ Promised h.usable picture calls.idr refs then
      some {
        session := (h.session.encodeFrame frameIndex calls).1
        usable := h.encoded picture calls.idr
        lastIndex := frameIndex }
    else none
  | .invalidateRefFrames firstFrame lastFrame answers =>
    (h.session.invalidateRefFrames firstFrame lastFrame answers).map fun r =>
      { h with session := r.1, usable := refStep h.usable (.invalidate r.2) }

abbrev RfiStep : Hardware → RfiOp → Hardware → Prop := ofPartial RfiOp.run

/-! ### The invariant -/

/-- The indices from `first` to `last`. -/
def span (first last : UInt64) : Set UInt64 := {j | first ≤ j ∧ j ≤ last}

/-- The range is out of use: the next frame is forced, or no usable frame is in it. -/
def OutOfUse (h : Hardware) (I : Set UInt64) : Prop := h.session.forceIdr = true ∨ Clear h.usable I

structure RfiInv (h : Hardware) : Prop where
  usable_le : ∀ r ∈ h.usable, r ≤ h.lastIndex
  unused : h.session.nvenc = none → h.usable = []
  encoded_le : ∀ e, h.session.nvenc = some e → e.lastEncodedFrameIndex ≤ h.lastIndex
  range_le : ∀ e, h.session.nvenc = some e → e.lastRfiRange.2 ≤ h.lastIndex
  /-- the last range that was asked for is out of use -/
  range : ∀ e, h.session.nvenc = some e → OutOfUse h (span e.lastRfiRange.1 e.lastRfiRange.2)

/-- The guard of a run: a frame that is forced is encoded. -/
def ForcedIsEncoded (h : Hardware) : RfiOp → Prop
  | .encodeFrame frameIndex calls _ =>
    h.session.forceIdr = true → (h.session.encodeFrame frameIndex calls).2.isSome = true
  | .invalidateRefFrames .. => True

instance (h : Hardware) : DecidablePred (ForcedIsEncoded h)
  | .encodeFrame frameIndex calls _ =>
    inferInstanceAs (Decidable (h.session.forceIdr = true → (h.session.encodeFrame frameIndex calls).2.isSome = true))
  | .invalidateRefFrames .. => instDecidableTrue

/-- A new session. -/
def Hardware.create (nvenc : Option NvencBase) : Hardware :=
  { session := { nvenc := nvenc.map fun e => { e with lastEncodedFrameIndex := 0, rfiNeedsConfirmation := false,
                                                      lastRfiRange := (0, 0) } } }

variable {h h' : Hardware}

theorem rfiInv_create (nvenc : Option NvencBase) : RfiInv (.create nvenc) where
  usable_le := by simp [Hardware.create]
  unused _ := rfl
  encoded_le e he := by
    obtain ⟨e', -, rfl⟩ := Option.map_eq_some_iff.mp he
    exact UInt64.le_refl _
  range_le e he := by
    obtain ⟨e', -, rfl⟩ := Option.map_eq_some_iff.mp he
    exact UInt64.le_refl _
  range e he := Or.inr clear_nil

/-! ### One call -/

theorem not_mem_span {first last i : UInt64} (h : last < i) : i ∉ span first last := by
  rintro ⟨-, hi⟩
  exact UInt64.not_le.mpr h hi

theorem picture_eq {s : NvencEncodeSession} {frameIndex : UInt64} {calls : EncodeCalls} {p : Picture}
    (h : s.picture frameIndex calls = some p) : p = { inputTimeStamp := frameIndex, forceIdr := s.forceIdr } := by
  obtain ⟨e, -, hp⟩ := Option.bind_eq_some_iff.mp h
  unfold NvencBase.picture at hp
  split at hp
  · exact (Option.some.inj hp).symm
  · cases hp

theorem picture_of_frame {s : NvencEncodeSession} {frameIndex : UInt64} {calls : EncodeCalls} {frame : EncodedFrame}
    (h : (s.encodeFrame frameIndex calls).2 = some frame) :
    s.picture frameIndex calls = some { inputTimeStamp := frameIndex, forceIdr := s.forceIdr } ∧
      frame.idr = calls.idr := by
  unfold NvencEncodeSession.encodeFrame at h
  cases he : s.nvenc with
  | none => rw [he] at h; cases h
  | some e =>
    simp only [he] at h
    rcases encodeFrame_cases e frameIndex s.forceIdr calls with hnone | ⟨hp, frame', hidr, -, hcall⟩
    · rw [hnone] at h
      cases h
    · rw [hcall] at h
      obtain rfl := Option.some.inj h
      exact ⟨by simp [NvencEncodeSession.picture, he, hp], hidr⟩

/-- What an `encode_frame` call leaves of the encoder's state. -/
theorem encodeFrame_nvenc {s : NvencEncodeSession} {frameIndex : UInt64} {calls : EncodeCalls} {e' : NvencBase}
    (h : (s.encodeFrame frameIndex calls).1.nvenc = some e') : ∃ e, s.nvenc = some e ∧
      e'.lastRfiRange = e.lastRfiRange ∧
      (e'.lastEncodedFrameIndex = e.lastEncodedFrameIndex ∨ e'.lastEncodedFrameIndex = frameIndex) := by
  unfold NvencEncodeSession.encodeFrame at h
  cases he : s.nvenc with
  | none => simp [he] at h
  | some e =>
    simp only [he, Option.some.injEq] at h
    refine ⟨e, rfl, ?_⟩
    rcases encodeFrame_cases e frameIndex s.forceIdr calls with hnone | ⟨-, frame', -, -, hcall⟩
    · rw [hnone] at h
      rw [← h]
      exact ⟨rfl, Or.inl rfl⟩
    · rw [hcall] at h
      rw [← h]
      exact ⟨rfl, Or.inr rfl⟩

theorem lastEncoded_of_frame {s : NvencEncodeSession} {frameIndex : UInt64} {calls : EncodeCalls} {frame : EncodedFrame}
    {e' : NvencBase} (h : (s.encodeFrame frameIndex calls).2 = some frame)
    (he' : (s.encodeFrame frameIndex calls).1.nvenc = some e') : e'.lastEncodedFrameIndex = frameIndex := by
  unfold NvencEncodeSession.encodeFrame at h he'
  cases he : s.nvenc with
  | none => rw [he] at h; cases h
  | some e =>
    simp only [he, Option.some.injEq] at h he'
    rcases encodeFrame_cases e frameIndex s.forceIdr calls with hnone | ⟨-, frame', -, -, hcall⟩
    · rw [hnone] at h
      cases h
    · rw [hcall] at he'
      rw [← he']

/-- What an `encode_frame` call does to a session and its hardware. -/
theorem encodeFrame_spec {frameIndex : UInt64} {calls : EncodeCalls} {refs : List UInt64}
    (hstep : RfiStep h (.encodeFrame frameIndex calls refs) h') :
    h.lastIndex < frameIndex ∧ Promised h.usable (h.session.picture frameIndex calls) calls.idr refs ∧
      h' = { session := (h.session.encodeFrame frameIndex calls).1,
             usable := h.encoded (h.session.picture frameIndex calls) calls.idr, lastIndex := frameIndex } := by
  obtain ⟨⟨hlt, hp⟩, rfl⟩ := of_ite_some hstep
  exact ⟨hlt, hp, rfl⟩

theorem mem_encoded {frameIndex : UInt64} {calls : EncodeCalls} {r : UInt64}
    (hr : r ∈ h.encoded (h.session.picture frameIndex calls) calls.idr) : r = frameIndex ∨ r ∈ h.usable := by
  unfold Hardware.encoded at hr
  split at hr
  next => exact Or.inr hr
  next p hp =>
    rw [picture_eq hp] at hr
    exact (mem_refStep_encode hr).imp_right And.right

/-- A range of earlier frames that is out of use stays so over an `encode_frame` call that loses no forced frame. -/
theorem outOfUse_encodeFrame {frameIndex : UInt64} {calls : EncodeCalls} {refs : List UInt64} {first last : UInt64}
    (hstep : RfiStep h (.encodeFrame frameIndex calls refs) h')
    (hg : ForcedIsEncoded h (.encodeFrame frameIndex calls refs)) (hlast : last ≤ h.lastIndex)
    (hI : OutOfUse h (span first last)) : OutOfUse h' (span first last) := by
  obtain ⟨hlt, hp, rfl⟩ := encodeFrame_spec hstep
  have hnot : frameIndex ∉ span first last := not_mem_span (by grind)
  right
  rcases hI with hforce | hclear
  · obtain ⟨frame, hframe⟩ := Option.isSome_iff_exists.mp (hg hforce)
    obtain ⟨hpic, -⟩ := picture_of_frame hframe
    rw [hpic] at hp
    have hidr : calls.idr = true := hp.1 hforce
    simp only [Hardware.encoded, hpic, hidr]
    exact clear_encode_idr hnot
  · simp only [Hardware.encoded]
    split
    next => exact hclear
    next p hpic =>
      rw [picture_eq hpic]
      exact hclear.encode hnot calls.idr

/-- The spec of an `invalidate_ref_frames` call of a session with an encoder. -/
theorem invalidateRefFrames_spec {firstFrame lastFrame : Int64} {answers : List Bool}
    (hstep : RfiStep h (.invalidateRefFrames firstFrame lastFrame answers) h') :
    (h.session.nvenc = none ∧ h'.session = h.session ∧ h'.usable ⊆ h.usable ∧ h'.lastIndex = h.lastIndex) ∨
      ∃ e e' done removed, h.session.nvenc = some e ∧
        e.invalidateRefFrames firstFrame.toUInt64 lastFrame.toUInt64 answers = some (e', done, removed) ∧
        h' = { session := { nvenc := some e', forceIdr := if done then h.session.forceIdr else true },
               usable := refStep h.usable (.invalidate removed), lastIndex := h.lastIndex } := by
  obtain ⟨⟨session, removed⟩, hcall, rfl⟩ := Option.map_eq_some_iff.mp hstep
  unfold NvencEncodeSession.invalidateRefFrames at hcall
  split at hcall
  next he =>
    cases hcall
    exact Or.inl ⟨he, rfl, refStep_invalidate_subset _ _, rfl⟩
  next e he =>
    obtain ⟨⟨e', done, removed'⟩, hbase, heq⟩ := Option.map_eq_some_iff.mp hcall
    cases heq
    exact Or.inr ⟨e, e', done, removed', he, hbase, rfl⟩

/-- A range that is out of use stays so over an `invalidate_ref_frames` call. -/
theorem outOfUse_invalidateRefFrames {firstFrame lastFrame : Int64} {answers : List Bool} {I : Set UInt64}
    (hstep : RfiStep h (.invalidateRefFrames firstFrame lastFrame answers) h') (hI : OutOfUse h I) :
    OutOfUse h' I := by
  rcases invalidateRefFrames_spec hstep with ⟨-, hsession, hsub, -⟩ | ⟨e, e', done, removed, -, -, rfl⟩
  · exact hI.imp (fun hforce => hsession ▸ hforce) fun hclear => hclear.mono hsub
  · refine hI.imp (fun hforce => ?_) fun hclear => hclear.mono (refStep_invalidate_subset _ _)
    simp [hforce]

/-! ### Runs -/

/-- **Step lemma.** -/
theorem rfiInv_step {op : RfiOp} (hI : RfiInv h) (hg : ForcedIsEncoded h op) (hstep : RfiStep h op h') :
    RfiInv h' := by
  cases op with
  | encodeFrame frameIndex calls refs =>
    have hkeep : ∀ first last, last ≤ h.lastIndex → OutOfUse h (span first last) → OutOfUse h' (span first last) :=
      fun _ _ hlast => outOfUse_encodeFrame hstep hg hlast
    obtain ⟨hlt, -, rfl⟩ := encodeFrame_spec hstep
    refine ⟨?_, ?_, ?_, ?_, ?_⟩
    · intro r hr
      rcases mem_encoded hr with rfl | hr
      · exact UInt64.le_refl _
      · have := hI.usable_le r hr
        grind
    · intro hnone
      have he : h.session.nvenc = none := by
        cases he : h.session.nvenc with
        | none => rfl
        | some e => simp [NvencEncodeSession.encodeFrame, he] at hnone
      have hpic : h.session.picture frameIndex calls = none := by simp [NvencEncodeSession.picture, he]
      simp only [Hardware.encoded, hpic]
      exact hI.unused he
    · intro e' he'
      obtain ⟨e, he, -, hlast⟩ := encodeFrame_nvenc he'
      have := hI.encoded_le e he
      grind
    · intro e' he'
      obtain ⟨e, he, hrange, -⟩ := encodeFrame_nvenc he'
      have := hI.range_le e he
      rw [hrange]
      grind
    · intro e' he'
      obtain ⟨e, he, hrange, -⟩ := encodeFrame_nvenc he'
      rw [hrange]
      exact hkeep _ _ (hI.range_le e he) (hI.range e he)
  | invalidateRefFrames firstFrame lastFrame answers =>
    have hkeep := fun I => outOfUse_invalidateRefFrames (I := I) hstep
    rcases invalidateRefFrames_spec hstep with ⟨hnone, hsession, hsub, hindex⟩ | ⟨e, e', done, removed, he, hcall, rfl⟩
    · have hnone' : h'.session.nvenc = none := hsession ▸ hnone
      have habsent : ∀ e, h'.session.nvenc ≠ some e := by simp [hnone']
      refine ⟨fun r hr => hindex ▸ hI.usable_le r (hsub hr), fun _ => ?_, ?_, ?_, ?_⟩
      · have hnil := hI.unused hnone
        rw [hnil] at hsub
        exact List.subset_nil.mp hsub
      · exact fun e he => absurd he (habsent e)
      · exact fun e he => absurd he (habsent e)
      · exact fun e he => absurd he (habsent e)
    · obtain ⟨hlast, hrange, hcases⟩ := invalidateRefFrames_cases hcall
      have hencoded := hI.encoded_le e he
      refine ⟨fun r hr => hI.usable_le r (refStep_invalidate_subset _ _ hr), ?_, ?_, ?_, ?_⟩
      · intro hnone
        cases hnone
      · intro e'' he''
        cases he''
        rw [hlast]
        exact hencoded
      · intro e'' he''
        cases he''
        rcases hrange with hsame | hnew
        · rw [hsame]
          exact hI.range_le e he
        · rw [hnew]
          exact hencoded
      · intro e'' he''
        cases he''
        rcases hcases with rfl | ⟨-, hsame, -⟩ | ⟨-, -, hnew, -, hremoved⟩
        · exact Or.inl rfl
        · rw [hsame]
          exact hkeep _ (hI.range e he)
        · rw [hnew]
          exact Or.inr (clear_invalidate fun r _ hr => hremoved r hr.1 hr.2)

/-- The last frame that a request is answered for: the end of the recorded range where it is already done, the frame
encoded last otherwise. -/
def Hardware.doneUpTo (h : Hardware) (firstFrame lastFrame : Int64) : UInt64 :=
  match h.session.nvenc with
  | none => 0
  | some e => e.doneUpTo firstFrame.toUInt64 lastFrame.toUInt64

theorem doneUpTo_le (hI : RfiInv h) (firstFrame lastFrame : Int64) :
    h.doneUpTo firstFrame lastFrame ≤ h.lastIndex := by
  unfold Hardware.doneUpTo
  split
  next => exact UInt64.zero_le
  next e he =>
    unfold NvencBase.doneUpTo
    split
    · exact hI.range_le e he
    · exact hI.encoded_le e he

/-- A request puts its range out of use. -/
theorem outOfUse_of_invalidate {firstFrame lastFrame : Int64} {answers : List Bool} (hI : RfiInv h)
    (hstep : RfiStep h (.invalidateRefFrames firstFrame lastFrame answers) h') :
    OutOfUse h' (span firstFrame.toUInt64 (h.doneUpTo firstFrame lastFrame)) := by
  have hkeep := fun I => outOfUse_invalidateRefFrames (I := I) hstep
  rcases invalidateRefFrames_spec hstep with ⟨hnone, -, hsub, -⟩ | ⟨e, e', done, removed, he, hcall, rfl⟩
  · right
    rw [hI.unused hnone] at hsub
    rw [List.subset_nil.mp hsub]
    exact clear_nil
  · obtain ⟨-, -, hcases⟩ := invalidateRefFrames_cases hcall
    have hupTo : h.doneUpTo firstFrame lastFrame = e.doneUpTo firstFrame.toUInt64 lastFrame.toUInt64 := by
      simp [Hardware.doneUpTo, he]
    rw [hupTo]
    rcases hcases with rfl | ⟨-, -, hfirst, -, hend⟩ | ⟨-, -, -, hend, hremoved⟩
    · exact Or.inl rfl
    · rw [hend]
      -- the request lies inside the recorded range
      refine (hkeep _ (hI.range e he)).imp_right fun hclear => hclear.anti ?_
      exact fun j hj => ⟨UInt64.le_trans hfirst hj.1, hj.2⟩
    · rw [hend]
      exact Or.inr (clear_invalidate fun r _ hr => hremoved r hr.1 hr.2)

/-- **Run lemma.**  A range of earlier frames that is out of use stays so. -/
theorem outOfUse_run {ops : List RfiOp} {first last : UInt64}
    (hrun : Run (Guarded RfiStep ForcedIsEncoded) h ops h') (hlast : last ≤ h.lastIndex)
    (hI : OutOfUse h (span first last)) : OutOfUse h' (span first last) := by
  have hinv := hrun.invariant (I := fun g => last ≤ g.lastIndex ∧ OutOfUse g (span first last)) ?_ ⟨hlast, hI⟩
  · exact hinv.2
  rintro g op g' ⟨hle, hout⟩ ⟨hg, hstep⟩
  cases op with
  | encodeFrame frameIndex calls refs =>
    refine ⟨?_, outOfUse_encodeFrame hstep hg hle hout⟩
    obtain ⟨hlt, -, rfl⟩ := encodeFrame_spec hstep
    grind
  | invalidateRefFrames firstFrame lastFrame answers =>
    refine ⟨?_, outOfUse_invalidateRefFrames hstep hout⟩
    obtain ⟨r, -, rfl⟩ := Option.map_eq_some_iff.mp hstep
    exact hle

/-- **Invalidation is sound.**  In every run in which no forced frame is lost: after an `invalidate_ref_frames` call,
every frame that is encoded later is an IDR frame, or refers to no frame from the first of the range up to the frame
encoded last before the call, or, where the request was already done, up to the end of the recorded range. -/
theorem invalidation_sound {nvenc : Option NvencBase} {ops ops' : List RfiOp} {h h' g g' : Hardware}
    {firstFrame lastFrame : Int64} {answers : List Bool} {frameIndex : UInt64} {calls : EncodeCalls}
    {refs : List UInt64} {frame : EncodedFrame}
    (hrun : Run (Guarded RfiStep ForcedIsEncoded) (.create nvenc) ops h)
    (hcall : RfiStep h (.invalidateRefFrames firstFrame lastFrame answers) h')
    (hrun' : Run (Guarded RfiStep ForcedIsEncoded) h' ops' g)
    (hencode : RfiStep g (.encodeFrame frameIndex calls refs) g')
    (hframe : (g.session.encodeFrame frameIndex calls).2 = some frame) :
    frame.idr = true ∨ ∀ r ∈ refs, r ∉ span firstFrame.toUInt64 (h.doneUpTo firstFrame lastFrame) := by
  have hI : RfiInv h :=
    hrun.invariant_where (I := RfiInv) (fun _ _ _ hI hg hs => rfiInv_step hI hg hs) (rfiInv_create nvenc)
  have hlast : h.doneUpTo firstFrame lastFrame ≤ h'.lastIndex := by
    obtain ⟨r, -, rfl⟩ := Option.map_eq_some_iff.mp hcall
    exact doneUpTo_le hI firstFrame lastFrame
  obtain ⟨hpic, hidr⟩ := picture_of_frame hframe
  obtain ⟨-, hp, -⟩ := encodeFrame_spec hencode
  rw [hpic] at hp
  rw [hidr]
  rcases outOfUse_run hrun' hlast (outOfUse_of_invalidate hI hcall) with hforce | hclear
  · exact Or.inl (hp.1 hforce)
  · cases hc : calls.idr with
    | true => exact Or.inl rfl
    | false =>
      right
      have hrefs := hp.2
      rw [hc] at hrefs
      exact fun r hr => hclear r (hrefs hr)

/-! ### A request that is already done -/

/-- An encoder that keeps five frames. -/
def fiveFrames : NvencBase := { encoder := true, rfi := true, refFramesInDpb := 5, asyncEvent := false }

/-- An `encode_frame` call that succeeds, with a picture that refers to `refs`. -/
def encodeOk (frameIndex : UInt64) (idr : Bool) (refs : List UInt64) : RfiOp :=
  .encodeFrame frameIndex { data := [0], idr } refs

/-- Five frames, the frames from 3 on are invalidated, and a sixth frame refers to 2. -/
def invalidateThree : List RfiOp :=
  [encodeOk 1 true [], encodeOk 2 false [1], encodeOk 3 false [2], encodeOk 4 false [3], encodeOk 5 false [4],
    .invalidateRefFrames 3 4 [true, true, true], encodeOk 6 false [2]]

/-- The state after `invalidateThree`. -/
def afterSix : Hardware where
  session := { nvenc := some { fiveFrames with lastEncodedFrameIndex := 6, lastRfiRange := (3, 5) } }
  usable := [6, 2, 1]
  lastIndex := 6

/-- A request for the frames from 3 to 5 comes again after frame 6: frame 7 is no IDR frame and refers to 6. -/
theorem already_done_spares_later_frames :
    Run (Guarded RfiStep ForcedIsEncoded) (.create (some fiveFrames)) invalidateThree afterSix ∧
      RfiStep afterSix (.invalidateRefFrames 3 5 []) afterSix ∧
      (∃ g, RfiStep afterSix (encodeOk 7 false [6]) g) ∧
      (afterSix.session.encodeFrame 7 { data := [0], idr := false }).2.map EncodedFrame.idr = some false ∧
      6 ∈ span (Int64.toUInt64 3) 6 ∧
      afterSix.session.nvenc.map NvencBase.lastEncodedFrameIndex = some 6 := by
  refine ⟨run_execWhere (f := RfiOp.run) (G := ForcedIsEncoded) (by rfl), by rfl, ⟨_, by rfl⟩, by rfl, ?_, by rfl⟩
  exact ⟨by decide, by decide⟩

/-- Frame 6, which frame 7 refers to, is none of the frames from 3 to 5. -/
theorem invalidation_sound_seven : (6 : UInt64) ∉ span (Int64.toUInt64 3) (afterSix.doneUpTo 3 5) := by
  have hrun : Run (Guarded RfiStep ForcedIsEncoded) (.create (some fiveFrames)) invalidateThree afterSix :=
    run_execWhere (f := RfiOp.run) (by rfl)
  have hcall : RfiStep afterSix (.invalidateRefFrames 3 5 []) afterSix := by rfl
  obtain ⟨g, hencode⟩ : ∃ g, RfiStep afterSix (encodeOk 7 false [6]) g := ⟨_, by rfl⟩
  have hframe : (afterSix.session.encodeFrame 7 { data := [0], idr := false }).2 =
      some { data := [0], frameIndex := 7, idr := false, afterRefFrameInvalidation := false } := by rfl
  rcases invalidation_sound hrun hcall Run.nil hencode hframe with hidr | hrefs
  · cases hidr
  · exact hrefs 6 (List.mem_singleton.mpr rfl)

end MidnightSun.Nvenc
