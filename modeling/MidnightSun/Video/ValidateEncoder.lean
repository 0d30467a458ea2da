import MidnightSun.Rtsp.Announce

/-!
# Trying an encoder (src/video.cpp, `validate_config`, `validate_encoder`)

`validate_encoder` sets all capability bits of an encoder and clears those that a test does not bear out.  What the
display and the encoder answer to the tests is a parameter, different for each call; within a call each configuration
is asked for at most once.

* `exists_passed_of_dynamicRange`: the HDR bit of a codec that works comes from a validation;
* `dynamicRange_iff_of_not_passed`: a codec that does not work keeps the HDR bit it was given at the beginning, where
  the display says that the codec is supported.
-/

namespace MidnightSun.Video.Probe

open Rtsp

/-! ### `validate_config` -/

/-- The first packet that comes out of the encoder. -/
structure Packet where
  isIdr : Bool
  /-- `cbs::validate_sps`, where the packet is one of avcodec -/
  validateSps : Option Bool
  deriving DecidableEq

/-- What happens when an encoder is tried with a configuration. -/
structure ConfigProbe where
  makeEncodeDevice : Bool
  makeEncodeSession : Bool
  /-- `alloc_img`, `dummy_img` and `convert` -/
  convert : Bool
  /-- how the loop around `encode` ends: with a packet, or with an error -/
  encode : Option Packet
  deriving DecidableEq

/-- `VUI_PARAMS` of `validate_flag_e`. -/
def vuiParams : ℤ := 1

/-- `validate_config`: a negative number, or the flags. -/
def validateConfig (probe : ConfigProbe) (config : VideoConfig) : ℤ :=
  if !probe.makeEncodeDevice then -1
  else if !probe.makeEncodeSession then -1
  else if !probe.convert then -1
  else
    match probe.encode with
    | none => -1
    | some packet =>
      if !packet.isIdr then -1
      else if config.videoFormat ≤ 1 then
        match packet.validateSps with
        | some valid => if valid then vuiParams else 0
        | none => vuiParams
      else 0

/-- `flags & VUI_PARAMS`, the lowest bit, also of the negative number -/
def hasVuiParams (flags : ℤ) : Bool := flags % 2 == 1

/-! ### `validate_encoder` -/

/-- `encoder_t::flag_e`, as the bits of `capabilities`. -/
structure Capabilities where
  passed : Bool
  refFramesRestrict : Bool
  dynamicRange : Bool
  yuv444 : Bool
  vuiParameters : Bool
  deriving DecidableEq

/-- `capabilities.set()`. -/
def Capabilities.set : Capabilities := ⟨true, true, true, true, true⟩

/-- `capabilities.reset()`. -/
def Capabilities.reset : Capabilities := ⟨false, false, false, false, false⟩

/-- `encoder_t::codec_t`. -/
structure Codec where
  name : String
  capabilities : Capabilities
  deriving DecidableEq

/-- `encoder_t`, with the `flags` that a probe reads. -/
structure Encoder where
  name : String
  av1 : Codec
  hevc : Codec
  h264 : Codec
  h264Only : Bool := false
  refFramesInvalidation : Bool := false
  alwaysReprobe : Bool := false
  yuv444Support : Bool := false
  deriving DecidableEq

/-- `codec_from_config`. -/
def Encoder.codecFromConfig (encoder : Encoder) (config : VideoConfig) : Codec :=
  if config.videoFormat = 1 then encoder.hevc
  else if config.videoFormat = 2 then encoder.av1
  else encoder.h264

/-- The encoder with all capability bits set. -/
def Encoder.setAll (encoder : Encoder) : Encoder :=
  { encoder with
    h264 := { encoder.h264 with capabilities := .set }
    hevc := { encoder.hevc with capabilities := .set }
    av1 := { encoder.av1 with capabilities := .set } }

/-- What the display and the encoder answer in one call of `validate_encoder`. -/
structure Answers where
  /-- `reset_display` leaves a display -/
  resetDisplay : VideoConfig → Bool
  isCodecSupported : String → VideoConfig → Bool
  probe : VideoConfig → ConfigProbe

/-- `validate_config` in this call. -/
def Answers.validate (a : Answers) (config : VideoConfig) : ℤ := validateConfig (a.probe config) config

/-- The configuration, if its validation succeeds. -/
def Answers.passing (a : Answers) (config : VideoConfig) : List VideoConfig :=
  if 0 ≤ a.validate config then [config] else []

/-- `config_max_ref_frames`, with the codec in its `videoFormat`. -/
def configMaxRefFrames (videoFormat : ℤ) : VideoConfig := ⟨1920, 1080, 60, 6000, 1000, 1, 1, 1, videoFormat, 0, 0, 0⟩

/-- `config_autoselect`. -/
def configAutoselect (videoFormat : ℤ) : VideoConfig := ⟨1920, 1080, 60, 6000, 1000, 1, 0, 1, videoFormat, 0, 0, 0⟩

def configH264Yuv444 : VideoConfig := ⟨1920, 1080, 60, 6000, 1000, 1, 0, 1, 0, 0, 1, 0⟩

/-- `generic_hdr_config`. -/
def genericHdrConfig (videoFormat : ℤ) : VideoConfig := ⟨1920, 1080, 60, 6000, 1000, 1, 0, 3, videoFormat, 1, 0, 0⟩

/-- The tests of HEVC and AV1 without HDR, with the validations that succeeded. -/
def testCodec (a : Answers) (maxRefFramesH264 : ℤ) (videoFormat : ℤ) (codec : Codec) : Codec × List VideoConfig :=
  if a.isCodecSupported codec.name (configAutoselect videoFormat) then
    let maxRefFrames := a.validate (configMaxRefFrames videoFormat)
    -- if H.264 succeeded with a maximum of reference frames, the second try is left out
    let again := !(decide (0 ≤ maxRefFrames) || decide (0 ≤ maxRefFramesH264))
    let autoselect := if again then a.validate (configAutoselect videoFormat) else maxRefFrames
    ({ codec with
        capabilities :=
          { codec.capabilities with
            vuiParameters := hasVuiParams maxRefFrames && hasVuiParams autoselect
            refFramesRestrict := decide (0 ≤ maxRefFrames)
            passed := decide (0 ≤ maxRefFrames) || decide (0 ≤ autoselect) } },
      a.passing (configMaxRefFrames videoFormat) ++ if again then a.passing (configAutoselect videoFormat) else [])
  else ({ codec with capabilities := .reset }, [])

/-- `test_hdr_and_yuv444`, with the validations that succeeded. -/
def testHdrAndYuv444 (a : Answers) (encoder : Encoder) (videoFormat : ℤ) (codec : Codec) :
    Codec × List VideoConfig :=
  let config := genericHdrConfig videoFormat
  if !codec.capabilities.passed then (codec, [])
  else
    let name := (encoder.codecFromConfig config).name
    let config444 := { config with chromaSamplingType := 1 }
    if encoder.yuv444Support && a.isCodecSupported name config444 && decide (0 ≤ a.validate config444) then
      ({ codec with capabilities := { codec.capabilities with dynamicRange := true, yuv444 := true } }, [config444])
    else if a.isCodecSupported name config && decide (0 ≤ a.validate config) then
      ({ codec with capabilities := { codec.capabilities with dynamicRange := true, yuv444 := false } }, [config])
    else ({ codec with capabilities := { codec.capabilities with dynamicRange := false, yuv444 := false } }, [])

/-- `config::video`, as far as a probe reads it.  `int_between_f` keeps the modes in range. -/
structure ConfigVideo where
  hevcMode : ℤ := 0
  av1Mode : ℤ := 0
  encoder : String := ""
  forceVideoHeaderReplace : Bool := false
  hevcMode_range : 0 ≤ hevcMode ∧ hevcMode ≤ 3 := by decide
  av1Mode_range : 0 ≤ av1Mode ∧ av1Mode ≤ 3 := by decide

/-- The outcome of `validate_encoder`, and the encoder after it. -/
structure Validation where
  ok : Bool
  encoder : Encoder
  /-- ghost: the validations of HEVC and AV1 that succeeded -/
  passed : List VideoConfig := []
  deriving DecidableEq

/-- `test_hevc` and `test_av1`. -/
def testsCodec (mode : ℤ) (encoder : Encoder) : Bool := decide (2 ≤ mode) || (mode == 0 && !encoder.h264Only)

/-- A codec that is not tested has no bits. -/
def testIf (test : Bool) (a : Answers) (maxRefFramesH264 videoFormat : ℤ) (codec : Codec) : Codec × List VideoConfig :=
  if test then testCodec a maxRefFramesH264 videoFormat codec else ({ codec with capabilities := .reset }, [])

/-- `encoder[VUI_PARAMETERS] && !config::sunshine.flags[FORCE_VIDEO_HEADER_REPLACE]`. -/
def Codec.clearVui (codec : Codec) (force : Bool) : Codec :=
  { codec with
    capabilities := { codec.capabilities with vuiParameters := codec.capabilities.vuiParameters && !force } }

/-- The second half of `validate_encoder`, once H.264 works. -/
def validateCodecs (video : ConfigVideo) (hevcMode av1Mode : ℤ) (a : Answers) (maxRefFramesH264 autoselectH264 : ℤ)
    (encoder : Encoder) : Validation :=
  let h264 := { encoder.h264.capabilities with
    vuiParameters := hasVuiParams maxRefFramesH264 && hasVuiParams autoselectH264
    refFramesRestrict := decide (0 ≤ maxRefFramesH264)
    passed := true }
  let (hevc, passedHevc) := testIf (testsCodec hevcMode encoder) a maxRefFramesH264 1 encoder.hevc
  let (av1, passedAv1) := testIf (testsCodec av1Mode encoder) a maxRefFramesH264 2 encoder.av1
  let h264 := { h264 with
    yuv444 := encoder.yuv444Support && a.isCodecSupported encoder.h264.name configH264Yuv444 &&
      decide (0 ≤ a.validate configH264Yuv444) }
  let encoder := { encoder with h264 := { encoder.h264 with capabilities := h264 }, hevc, av1 }
  let passed := passedHevc ++ passedAv1
  if !a.resetDisplay (genericHdrConfig 1) then { ok := false, encoder, passed }
  else
    let (hevc, passedHevcHdr) := testHdrAndYuv444 a encoder 1 hevc
    let (av1, passedAv1Hdr) := testHdrAndYuv444 a encoder 2 av1
    { ok := true
      encoder :=
        { encoder with
          h264 := ({ encoder.h264 with capabilities := { h264 with dynamicRange := false } }).clearVui
            video.forceVideoHeaderReplace
          hevc := hevc.clearVui video.forceVideoHeaderReplace
          av1 }
      passed := passed ++ passedHevcHdr ++ passedAv1Hdr }

/-- `max_ref_frames_h264` and `autoselect_h264`. -/
def testH264 (a : Answers) (expectFailure : Bool) : ℤ × ℤ :=
  -- where a failure is expected, the automatic number of reference frames is tried first
  let maxRefFrames := if expectFailure then -1 else a.validate (configMaxRefFrames 0)
  let autoselect := if 0 ≤ maxRefFrames then maxRefFrames else a.validate (configAutoselect 0)
  (if expectFailure then a.validate (configMaxRefFrames 0) else maxRefFrames, autoselect)

/-- `validate_encoder`, with the active modes at the call. -/
def validateEncoder (video : ConfigVideo) (hevcMode av1Mode : ℤ) (a : Answers) (expectFailure : Bool)
    (encoder : Encoder) : Validation :=
  let encoder := encoder.setAll
  if !a.resetDisplay (configAutoselect 0) then { ok := false, encoder }
  else if !a.isCodecSupported encoder.h264.name (configAutoselect 0) then { ok := false, encoder }
  else
    let (maxRefFramesH264, autoselectH264) := testH264 a expectFailure
    if autoselectH264 < 0 then { ok := false, encoder }
    else validateCodecs video hevcMode av1Mode a maxRefFramesH264 autoselectH264 encoder

/-! ### The two codecs that are tested after H.264 -/

inductive Tested where
  | hevc
  | av1
  deriving DecidableEq

namespace Tested

def pick {α : Type} : Tested → α → α → α
  | hevc, x, _ => x
  | av1, _, y => y

def codec (k : Tested) (encoder : Encoder) : Codec := k.pick encoder.hevc encoder.av1

def videoFormat (k : Tested) : ℤ := k.pick 1 2

end Tested

/-- The display says that the codec is supported, and all validations of it fail. -/
def Answers.misleading (a : Answers) (name : String) (videoFormat : ℤ) : Bool :=
  a.isCodecSupported name (configAutoselect videoFormat) &&
    decide (a.validate (configMaxRefFrames videoFormat) < 0) &&
    (decide (0 ≤ a.validate (configMaxRefFrames 0)) || decide (a.validate (configAutoselect videoFormat) < 0))

variable {video : ConfigVideo} {hevcMode av1Mode : ℤ} {a : Answers} {expectFailure : Bool} {encoder : Encoder}

@[simp] theorem name_testIf (test : Bool) (a : Answers) (m videoFormat : ℤ) (codec : Codec) :
    (testIf test a m videoFormat codec).1.name = codec.name := by
  unfold testIf testCodec
  split
  · simp only
    split <;> rfl
  · rfl

@[simp] theorem name_testHdrAndYuv444 (a : Answers) (encoder : Encoder) (videoFormat : ℤ) (codec : Codec) :
    (testHdrAndYuv444 a encoder videoFormat codec).1.name = codec.name := by
  unfold testHdrAndYuv444
  simp only
  repeat' split
  all_goals rfl

theorem testIf_dynamicRange {test : Bool} {m videoFormat : ℤ} {codec : Codec}
    (hset : codec.capabilities = .set) :
    (testIf test a m videoFormat codec).1.capabilities.dynamicRange =
      (test && a.isCodecSupported codec.name (configAutoselect videoFormat)) := by
  unfold testIf testCodec
  cases test with
  | false => rfl
  | true =>
    simp only [if_true, Bool.true_and]
    split
    next h => simp [h, hset, Capabilities.set]
    next h => simp [h, Capabilities.reset]

theorem testIf_passed {test : Bool} {m videoFormat : ℤ} {codec : Codec} (hm : m = a.validate (configMaxRefFrames 0))
    (h : (test && a.isCodecSupported codec.name (configAutoselect videoFormat)) = true) :
    (testIf test a m videoFormat codec).1.capabilities.passed = !a.misleading codec.name videoFormat := by
  obtain ⟨rfl, hs⟩ := Bool.and_eq_true_iff.mp h
  unfold testIf testCodec Answers.misleading
  simp only [if_true, hs, Bool.true_and, hm]
  by_cases h₁ : 0 ≤ a.validate (configMaxRefFrames videoFormat)
  · simp [h₁]
  · by_cases h₂ : 0 ≤ a.validate (configMaxRefFrames 0)
    · simp [h₁, h₂, not_le.mp h₁]
    · by_cases h₃ : 0 ≤ a.validate (configAutoselect videoFormat)
      · simp [h₁, h₂, h₃]
      · simp [h₁, h₂, h₃, not_le.mp h₁, not_le.mp h₃]

theorem testIf_not_passed {test : Bool} {m videoFormat : ℤ} {codec : Codec}
    (h : (test && a.isCodecSupported codec.name (configAutoselect videoFormat)) = false) :
    (testIf test a m videoFormat codec).1.capabilities.passed = false := by
  unfold testIf testCodec
  cases test with
  | false => rfl
  | true =>
    have hs : a.isCodecSupported codec.name (configAutoselect videoFormat) = false := by simpa using h
    simp [hs, Capabilities.reset]

theorem testHdrAndYuv444_of_not_passed {videoFormat : ℤ} {codec : Codec} (h : codec.capabilities.passed = false) :
    testHdrAndYuv444 a encoder videoFormat codec = (codec, []) := by
  unfold testHdrAndYuv444
  simp [h]

@[simp] theorem passed_testHdrAndYuv444 (a : Answers) (encoder : Encoder) (videoFormat : ℤ) (codec : Codec) :
    (testHdrAndYuv444 a encoder videoFormat codec).1.capabilities.passed = codec.capabilities.passed := by
  unfold testHdrAndYuv444
  simp only
  repeat' split
  all_goals rfl

theorem testHdrAndYuv444_dynamicRange {videoFormat : ℤ} {codec : Codec} (hp : codec.capabilities.passed = true)
    (hd : (testHdrAndYuv444 a encoder videoFormat codec).1.capabilities.dynamicRange = true) :
    ∃ c ∈ (testHdrAndYuv444 a encoder videoFormat codec).2, c.videoFormat = videoFormat ∧ c.dynamicRange = 1 := by
  unfold testHdrAndYuv444 at hd ⊢
  simp only [hp, Bool.not_true, Bool.false_eq_true, if_false] at hd ⊢
  split
  · exact ⟨_, List.mem_singleton.mpr rfl, rfl, rfl⟩
  next h =>
    rw [if_neg h] at hd
    split
    · exact ⟨_, List.mem_singleton.mpr rfl, rfl, rfl⟩
    next h' =>
      rw [if_neg h'] at hd
      cases hd

/-- What a test of a codec leaves, from the answers of the call. -/
structure CodecSpec (a : Answers) (test : Bool) (name : String) (videoFormat : ℤ) (capabilities : Capabilities)
    (passed : List VideoConfig) : Prop where
  hdr : capabilities.passed = true → capabilities.dynamicRange = true →
    ∃ c ∈ passed, c.videoFormat = videoFormat ∧ c.dynamicRange = 1
  stale : capabilities.passed = false → capabilities.dynamicRange = (test && a.misleading name videoFormat)
  fails : a.misleading name videoFormat = true → capabilities.passed = false

theorem codecSpec_test {test : Bool} {m videoFormat : ℤ} {codec : Codec} (hm : m = a.validate (configMaxRefFrames 0))
    (hset : codec.capabilities = .set) :
    CodecSpec a test codec.name videoFormat
      (testHdrAndYuv444 a encoder videoFormat (testIf test a m videoFormat codec).1).1.capabilities
      (testHdrAndYuv444 a encoder videoFormat (testIf test a m videoFormat codec).1).2 := by
  refine ⟨fun hp hd => ?_, fun hp => ?_, fun hfail => ?_⟩
  · rw [passed_testHdrAndYuv444] at hp
    exact testHdrAndYuv444_dynamicRange hp hd
  · rw [passed_testHdrAndYuv444] at hp
    rw [testHdrAndYuv444_of_not_passed hp, testIf_dynamicRange hset]
    cases hts : test && a.isCodecSupported codec.name (configAutoselect videoFormat) with
    | true =>
      rw [testIf_passed hm hts, Bool.not_eq_false'] at hp
      rw [(Bool.and_eq_true_iff.mp hts).1, hp]
      rfl
    | false =>
      unfold Answers.misleading
      rw [Bool.and_assoc, ← Bool.and_assoc test, hts, Bool.false_and]
  · rw [passed_testHdrAndYuv444]
    cases hts : test && a.isCodecSupported codec.name (configAutoselect videoFormat) with
    | true => rw [testIf_passed hm hts, hfail, Bool.not_true]
    | false => exact testIf_not_passed hts

theorem CodecSpec.mono {test : Bool} {name : String} {videoFormat : ℤ} {capabilities : Capabilities}
    {passed passed' : List VideoConfig} (h : CodecSpec a test name videoFormat capabilities passed)
    (hsub : passed ⊆ passed') : CodecSpec a test name videoFormat capabilities passed' :=
  { h with hdr := fun hp hd => (h.hdr hp hd).imp fun _ hc => ⟨hsub hc.1, hc.2⟩ }

theorem CodecSpec.clearVui {test : Bool} {name : String} {videoFormat : ℤ} {codec : Codec} {passed : List VideoConfig}
    (h : CodecSpec a test name videoFormat codec.capabilities passed) (force : Bool) :
    CodecSpec a test name videoFormat (codec.clearVui force).capabilities passed := ⟨h.hdr, h.stale, h.fails⟩

theorem fst_testH264 (a : Answers) (expectFailure : Bool) :
    (testH264 a expectFailure).1 = a.validate (configMaxRefFrames 0) := by
  cases expectFailure <;> rfl

/-- A successful call comes to the tests of the codecs. -/
theorem validateEncoder_of_ok (hok : (validateEncoder video hevcMode av1Mode a expectFailure encoder).ok = true) :
    ∃ autoselectH264, validateEncoder video hevcMode av1Mode a expectFailure encoder =
      validateCodecs video hevcMode av1Mode a (a.validate (configMaxRefFrames 0)) autoselectH264 encoder.setAll := by
  unfold validateEncoder at hok ⊢
  simp only [fst_testH264] at hok ⊢
  split at hok
  · cases hok
  next h₁ =>
    rw [if_neg h₁]
    split at hok
    · cases hok
    next h₂ =>
      rw [if_neg h₂]
      split at hok
      · cases hok
      next h₃ => exact ⟨_, if_neg h₃⟩

theorem codecSpec_validateCodecs {autoselectH264 : ℤ} (k : Tested)
    (hset : ∀ k : Tested, (k.codec encoder).capabilities = .set) {v : Validation}
    (hv : validateCodecs video hevcMode av1Mode a (a.validate (configMaxRefFrames 0)) autoselectH264 encoder = v)
    (hok : v.ok = true) :
    CodecSpec a (testsCodec (k.pick hevcMode av1Mode) encoder) (k.codec encoder).name k.videoFormat
      (k.codec v.encoder).capabilities v.passed := by
  subst hv
  unfold validateCodecs at hok ⊢
  simp only at hok ⊢
  split at hok
  · cases hok
  next h =>
    rw [if_neg h]
    cases k with
    | hevc =>
      refine ((codecSpec_test rfl (hset .hevc)).mono fun c hc => ?_).clearVui video.forceVideoHeaderReplace
      exact List.mem_append_left _ (List.mem_append_right _ hc)
    | av1 =>
      refine (codecSpec_test rfl (hset .av1)).mono fun c hc => ?_
      exact List.mem_append_right _ hc

/-- **What a successful call of `validate_encoder` says** about HEVC and AV1. -/
theorem codecSpec_validateEncoder (k : Tested)
    (hok : (validateEncoder video hevcMode av1Mode a expectFailure encoder).ok = true) :
    CodecSpec a (testsCodec (k.pick hevcMode av1Mode) encoder) (k.codec encoder).name k.videoFormat
      (k.codec (validateEncoder video hevcMode av1Mode a expectFailure encoder).encoder).capabilities
      (validateEncoder video hevcMode av1Mode a expectFailure encoder).passed := by
  obtain ⟨autoselectH264, hv⟩ := validateEncoder_of_ok hok
  have hspec := codecSpec_validateCodecs k (fun k => by cases k <;> rfl) hv.symm hok
  cases k <;> exact hspec

/-! ### What a call leaves alone -/

@[simp] theorem setAll_setAll (encoder : Encoder) : encoder.setAll.setAll = encoder.setAll := rfl

theorem setAll_validateCodecs (m autoselectH264 : ℤ) :
    (validateCodecs video hevcMode av1Mode a m autoselectH264 encoder).encoder.setAll = encoder.setAll := by
  unfold validateCodecs
  simp only
  split <;> simp [Encoder.setAll, Codec.clearVui]

theorem setAll_validateEncoder :
    (validateEncoder video hevcMode av1Mode a expectFailure encoder).encoder.setAll = encoder.setAll := by
  unfold validateEncoder
  simp only
  repeat' split
  · rfl
  · rfl
  · rfl
  · rw [setAll_validateCodecs, setAll_setAll]

theorem validateEncoder_congr {encoder' : Encoder} (h : encoder'.setAll = encoder.setAll) :
    validateEncoder video hevcMode av1Mode a expectFailure encoder' =
      validateEncoder video hevcMode av1Mode a expectFailure encoder := by
  unfold validateEncoder
  rw [h]

end MidnightSun.Video.Probe
