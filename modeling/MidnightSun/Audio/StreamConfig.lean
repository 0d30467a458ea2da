import MidnightSun.Rtsp.Announce

/-!
# The configuration of the audio encoder (src/audio.h, src/audio.cpp)

`encodeThread` looks up a stream configuration for the channels of a session and puts the custom surround parameters of
the client into it.
-/

namespace MidnightSun.Audio

open Rtsp Util

/-- `stream_config_e`. -/
inductive StreamConfig where
  | stereo
  | highStereo
  | surround51
  | highSurround51
  | surround71
  | highSurround71
  deriving DecidableEq

/-- `platf::speaker::speaker_e`. -/
inductive Speaker where
  | frontLeft
  | frontRight
  | frontCenter
  | lowFrequency
  | backLeft
  | backRight
  | sideLeft
  | sideRight

def Speaker.code : Speaker → UInt8
  | frontLeft => 0
  | frontRight => 1
  | frontCenter => 2
  | lowFrequency => 3
  | backLeft => 4
  | backRight => 5
  | sideLeft => 6
  | sideRight => 7

open Speaker in
def mapStereo : List UInt8 := [frontLeft, frontRight].map code

open Speaker in
def mapSurround51 : List UInt8 :=
  [frontLeft, frontRight, frontCenter, lowFrequency, backLeft, backRight].map code

open Speaker in
def mapSurround71 : List UInt8 :=
  [frontLeft, frontRight, frontCenter, lowFrequency, backLeft, backRight, sideLeft, sideRight].map code

/-- `opus_stream_config_t`. -/
structure OpusStreamConfig where
  sampleRate : ℤ
  channelCount : ℤ
  streams : ℤ
  coupledStreams : ℤ
  mapping : List UInt8
  bitrate : ℤ
  deriving DecidableEq

/-- `SAMPLE_RATE`. -/
def sampleRate : ℤ := 48000

/-- `stream_configs`. -/
def streamConfigs : StreamConfig → OpusStreamConfig
  | .stereo => ⟨sampleRate, 2, 1, 1, mapStereo, 96000⟩
  | .highStereo => ⟨sampleRate, 2, 1, 1, mapStereo, 512000⟩
  | .surround51 => ⟨sampleRate, 6, 4, 2, mapSurround51, 256000⟩
  | .highSurround51 => ⟨sampleRate, 6, 6, 0, mapSurround51, 1536000⟩
  | .surround71 => ⟨sampleRate, 8, 5, 3, mapSurround71, 450000⟩
  | .highSurround71 => ⟨sampleRate, 8, 8, 0, mapSurround71, 2048000⟩

def mapStream (channels : ℤ) (quality : Bool) : StreamConfig :=
  if channels = 2 then if quality then .highStereo else .stereo
  else if channels = 6 then if quality then .highSurround51 else .surround51
  else if channels = 8 then if quality then .highSurround71 else .surround71
  else .stereo

def applySurroundParams (stream : OpusStreamConfig) (params : StreamParams) : OpusStreamConfig :=
  { stream with
    channelCount := params.channelCount
    streams := params.streams
    coupledStreams := params.coupledStreams
    mapping := params.mapping }

/-- The configuration that `encodeThread` creates the encoder with; `none` if it reads parameters that were never
set. -/
def encoderStream (config : AudioConfig) : Option OpusStreamConfig :=
  let stream := streamConfigs (mapStream config.channels config.highQuality)
  if config.customSurroundParams then config.customStreamParams.map (applySurroundParams stream) else some stream

/-- What `opus_multistream_encoder_create` asks of its arguments. -/
structure EncoderAccepts (stream : OpusStreamConfig) : Prop where
  streams : 1 ≤ stream.streams
  coupled : 0 ≤ stream.coupledStreams ∧ stream.coupledStreams ≤ stream.streams
  channels : stream.streams + stream.coupledStreams = stream.channelCount
  mapping : ∀ x ∈ stream.mapping, (x.toNat : ℤ) < stream.streams + stream.coupledStreams

/-- Every configuration of the table is one that the encoder accepts. -/
theorem encoderAccepts_streamConfigs (e : StreamConfig) : EncoderAccepts (streamConfigs e) := by
  cases e <;> refine ⟨by decide, by decide, by decide, ?_⟩ <;>
    simp [streamConfigs, mapStereo, mapSurround51, mapSurround71, Speaker.code]

/-- A surround parameter string that passes the checks: the digits of the channels, the streams, the coupled streams and
the mapping. -/
structure SurroundDigits (params : Str) (c n m : UInt8) (mapping : List UInt8) : Prop where
  digits : params = (c :: n :: m :: mapping).map (· + 48)
  surround : c = 6 ∨ c = 8
  sum : n.toNat + m.toNat = c.toNat
  size : mapping.length = c.toNat
  below : ∀ x ∈ mapping, x < c

/-- What should hold of the encoder of an audio configuration: custom surround parameters are valid for it, and without
them the table is used. -/
structure ValidSurround (config : AudioConfig) : Prop where
  custom : config.customSurroundParams = true →
    ∃ stream, encoderStream config = some stream ∧ EncoderAccepts stream ∧ stream.channelCount = config.channels
  rejected : config.customSurroundParams = false →
    encoderStream config = some (streamConfigs (mapStream config.channels config.highQuality))

/-! ### The checks of `cmd_announce` -/

lemma readMapping_snd (c : UInt8) (chars : Str) : (readMapping c chars).2 = true ↔ ∀ ch ∈ chars, ch - 48 < c := by
  induction chars with
  | nil => simp [readMapping]
  | cons ch chars ih =>
    rw [readMapping, List.forall_mem_cons]
    split_ifs with h
    · exact iff_of_false nofun fun h' => absurd h'.1 (UInt8.not_lt.mpr h)
    · rw [ih]
      exact (and_iff_right (UInt8.not_le.mp h)).symm

lemma readMapping_fst {c : UInt8} {chars : Str} (h : (readMapping c chars).2 = true) :
    (readMapping c chars).1 = chars.map (· - 48) := by
  induction chars with
  | nil => rfl
  | cons ch chars ih =>
    rw [readMapping] at h ⊢
    split_ifs at h ⊢
    rw [List.map_cons, ← ih h]

/-- Parameters that pass the checks are stored, and the flag is set. -/
lemma surroundAudio_of_digits {params : Str} {c n m : UInt8} {mapping : List UInt8}
    (h : SurroundDigits params c n m mapping) {audio : AudioConfig} (hc : audio.channels = c.toNat) :
    surroundAudio params audio =
      { audio with
        customStreamParams :=
          some { channelCount := c.toNat, streams := n.toNat, coupledStreams := m.toNat, mapping := mapping }
        customSurroundParams := true } := by
  obtain ⟨rfl, hsurround, hsum, hsize, hbelow⟩ := h
  obtain ⟨x, rest, rfl⟩ : ∃ x rest, mapping = x :: rest := by
    apply List.exists_cons_of_length_pos
    rcases hsurround with rfl | rfl <;> rw [hsize] <;> decide
  have hcancel : ((x :: rest).map (· + 48)).map (· - 48) = x :: rest := by
    rw [List.map_map]
    convert List.map_id _
    funext y
    exact UInt8.add_sub_cancel y 48
  have hvalid : (readMapping c ((x :: rest).map (· + 48))).2 = true := by
    rw [readMapping_snd]
    intro ch hch
    obtain ⟨y, hy, rfl⟩ := List.mem_map.mp hch
    rw [UInt8.add_sub_cancel]
    exact hbelow y hy
  have hfst := readMapping_fst hvalid
  rw [hcancel] at hfst
  simp only [List.map_cons] at hvalid hfst ⊢
  rw [surroundAudio]
  simp only [UInt8.add_sub_cancel, hvalid, hfst]
  rw [if_pos ⟨hsurround, hc.symm, hsum, by simpa using hsize⟩]

/-- The flag is set for no other ones. -/
lemma digits_of_surroundAudio {params : Str} {audio : AudioConfig} (haudio : audio.customSurroundParams = false)
    (h : (surroundAudio params audio).customSurroundParams = true) :
    ∃ c n m mapping, audio.channels = c.toNat ∧ SurroundDigits params c n m mapping := by
  unfold surroundAudio at h
  split at h
  · next c n m x rest =>
    dsimp only at h
    split_ifs at h with hchecks
    obtain ⟨hsurround, hc, hsum, hlen⟩ := hchecks
    refine ⟨c - 48, n - 48, m - 48, (x :: rest).map (· - 48), hc.symm, ?_, hsurround, hsum, ?_, ?_⟩
    · have hcancel : ((c :: n :: m :: x :: rest).map (· - 48)).map (· + 48) = c :: n :: m :: x :: rest := by
        rw [List.map_map]
        convert List.map_id _
        funext y
        exact UInt8.sub_add_cancel y 48
      exact hcancel.symm
    · rw [List.length_map]
      simpa using hlen
    · intro y hy
      obtain ⟨ch, hch, rfl⟩ := List.mem_map.mp hy
      exact (readMapping_snd _ _).mp h ch hch
  · rw [haudio] at h
    cases h

/-! ### Accepted requests -/

section Accepted

variable {env : AnnounceEnv} {launch : LaunchParams} {address : Net.Address} {req : AnnounceRequest} {config : Config}

/-- The number of channels that a request asks for. -/
def requestedChannels (req : AnnounceRequest) : Option ℤ :=
  (argAt (announceArgs req.payload) "x-nv-audio.surround.numChannels").map toInt

lemma readConfig_audio {ss : EncryptionFlags} {args : List (Str × Str)} {kbps : ℤ}
    (h : readConfig ss launch args = some (config, kbps)) : readAudio launch args = some config.audio := by
  rw [readConfig] at h
  simp only [Option.bind_eq_bind, Option.bind_eq_some_iff] at h
  obtain ⟨audio, haudio, _, -, _, -, _, -, _, -, _, -, _, -, _, -, _, -, _, -, _, -, heq⟩ := h
  obtain ⟨rfl, -⟩ := Prod.mk.inj (Option.some.inj heq)
  exact haudio

lemma readAudio_channels {args : List (Str × Str)} {audio : AudioConfig} (h : readAudio launch args = some audio) :
    (argAt args "x-nv-audio.surround.numChannels").map toInt = some audio.channels ∧
      audio.customSurroundParams = false := by
  rw [readAudio] at h
  simp only [Option.bind_eq_bind, Option.bind_eq_some_iff] at h
  obtain ⟨channels, hchannels, _, -, _, -, _, -, heq⟩ := h
  obtain rfl := Option.some.inj heq
  exact ⟨by rw [hchannels]; rfl, rfl⟩

/-- The audio configuration of an accepted request, from the one that its arguments give. -/
lemma audio_of_accepted (h : cmdAnnounce env launch address req = .accepted config) :
    ∃ audio : AudioConfig, requestedChannels req = some audio.channels ∧ audio.customSurroundParams = false ∧
      ∃ continuous, config.audio =
        { (if audio.channels = 2 then stereoQuality req.hosts audio else surroundAudio launch.surroundParams audio) with
          continuousAudio := continuous } := by
  unfold cmdAnnounce at h
  split at h
  · cases h
  next config₀ kbps hread =>
    obtain ⟨hchannels, hcustom⟩ := readAudio_channels (readConfig_audio hread)
    dsimp only at h
    split_ifs at h
    obtain rfl := Announced.accepted.inj h
    refine ⟨config₀.audio, hchannels, hcustom, ?_⟩
    rw [adjustConfig]
    dsimp only
    split_ifs
    all_goals exact ⟨_, rfl⟩

lemma stereoQuality_customSurroundParams (hosts : List Str) (audio : AudioConfig) :
    (stereoQuality hosts audio).customSurroundParams = audio.customSurroundParams := by
  rw [stereoQuality]
  split <;> rfl

lemma validSurround_of_unset {audio : AudioConfig} (h : audio.customSurroundParams = false) : ValidSurround audio := by
  constructor
  · intro htrue
    rw [h] at htrue
    cases htrue
  · intro _
    rw [encoderStream, h, if_neg Bool.false_ne_true]

/-- The encoder with parameters that pass the checks. -/
lemma validSurround_of_digits {c n m : UInt8} {mapping : List UInt8}
    (h : SurroundDigits launch.surroundParams c n m mapping) {audio : AudioConfig} (hc : audio.channels = c.toNat)
    (continuous : Bool) :
    ValidSurround { surroundAudio launch.surroundParams audio with continuousAudio := continuous } ↔ m ≤ n := by
  rw [surroundAudio_of_digits h hc]
  have hcount : 6 ≤ c.toNat := by
    rcases h.surround with rfl | rfl <;> decide
  have hsum := h.sum
  constructor
  · rintro ⟨hcustom, -⟩
    obtain ⟨stream, hstream, haccepts, -⟩ := hcustom rfl
    obtain rfl := Option.some.inj hstream
    exact UInt8.le_iff_toNat_le.mpr (Int.ofNat_le.mp haccepts.coupled.2)
  · intro hle
    have hle := UInt8.le_iff_toNat_le.mp hle
    refine ⟨fun _ => ⟨_, rfl, ⟨?_, ⟨?_, ?_⟩, ?_, ?_⟩, hc.symm⟩, nofun⟩
    all_goals
      dsimp only [applySurroundParams]
    · omega
    · omega
    · omega
    · omega
    · intro x hx
      have hlt := UInt8.lt_iff_toNat_lt.mp (h.below x hx)
      omega

/-- **Custom surround parameters of an accepted request are valid for the encoder when no string that passes the checks
has more coupled streams than streams**, and only then. -/
theorem accepted_surround_iff (h : cmdAnnounce env launch address req = .accepted config) :
    ValidSurround config.audio ↔ ∀ c n m mapping, requestedChannels req = some (c.toNat : ℤ) →
      SurroundDigits launch.surroundParams c n m mapping → m ≤ n := by
  obtain ⟨audio, hchannels, hcustom, continuous, haudio⟩ := audio_of_accepted h
  rw [hchannels, haudio]
  by_cases htwo : audio.channels = 2
  · rw [if_pos htwo]
    apply iff_of_true
    · exact validSurround_of_unset ((stereoQuality_customSurroundParams req.hosts audio).trans hcustom)
    · intro c n m mapping hc hdigits
      rw [htwo] at hc
      have hc := Option.some.inj hc
      rcases hdigits.surround with rfl | rfl <;> exact absurd hc (by decide)
  · rw [if_neg htwo]
    constructor
    · intro hvalid c n m mapping hc hdigits
      exact (validSurround_of_digits hdigits (Option.some.inj hc) continuous).mp hvalid
    · intro hle
      rcases hflag : (surroundAudio launch.surroundParams audio).customSurroundParams with _ | _
      · exact validSurround_of_unset hflag
      · obtain ⟨c, n, m, mapping, hc, hdigits⟩ := digits_of_surroundAudio hcustom hflag
        exact (validSurround_of_digits hdigits hc continuous).mpr (hle c n m mapping (by rw [hc]) hdigits)

end Accepted

/-- A client that asks for six channels. -/
def surroundRequest : AnnounceRequest where
  payload := payloadOf
    [("x-nv-video[0].packetSize", "1024"), ("x-nv-video[0].clientViewportWd", "1920"),
      ("x-nv-video[0].clientViewportHt", "1080"), ("x-nv-video[0].maxFPS", "60"),
      ("x-nv-vqos[0].bw.maximumBitrateKbps", "10000"), ("x-nv-audio.surround.numChannels", "6"),
      ("x-nv-audio.surround.channelMask", "63"), ("x-nv-audio.surround.AudioQuality", "0"),
      ("x-nv-video[0].videoEncoderSlicesPerFrame", "1"), ("x-nv-video[0].maxNumReferenceFrames", "1")]

/-- What its arguments say. -/
def surroundConfig : Config where
  audio := { packetDuration := 5, channels := 6, mask := 63, highQuality := false, hostAudio := false }
  monitor :=
    { width := 1920, height := 1080, framerate := 60, framerateX100 := 0, bitrate := 10000, slicesPerFrame := 1
      numRefFrames := 1, encoderCscMode := 0, videoFormat := 0, dynamicRange := 0, chromaSamplingType := 0
      enableIntraRefresh := 0 }
  packetsize := 1024
  minRequiredFecPackets := 0
  mlFeatureFlags := 0
  controlProtocolType := 1
  audioQosType := 4
  videoQosType := 5
  encryptionFlagsEnabled := 0

/-- Its launch session, with surround parameters. -/
def surroundLaunch (params : String) : LaunchParams := { surroundParams := str params }

lemma readConfig_surround (params : String) :
    readConfig plainEnv.ss (surroundLaunch params) (announceArgs surroundRequest.payload) =
      some (surroundConfig, 0) := by
  have h : readConfig plainEnv.ss {} (announceArgs surroundRequest.payload) = some (surroundConfig, 0) := by
    decide +kernel
  exact h

lemma surround_accepted (params : String) :
    cmdAnnounce plainEnv (surroundLaunch params) (.v4 0) surroundRequest =
      .accepted (adjustConfig plainEnv (surroundLaunch params) [] surroundConfig 0) := by
  rw [cmdAnnounce, readConfig_surround]
  rfl

theorem accepted_surround_valid :
    ValidSurround (adjustConfig plainEnv (surroundLaunch "633012345") [] surroundConfig 0).audio ↔
      ∀ c n m mapping, requestedChannels surroundRequest = some (c.toNat : ℤ) →
        SurroundDigits (str "633012345") c n m mapping → m ≤ n :=
  accepted_surround_iff (surround_accepted "633012345")

/-- Six coupled streams of no streams pass the checks, and the encoder does not accept them. -/
theorem accepted_surround_uncoupled :
    ∃ config, cmdAnnounce plainEnv (surroundLaunch "606012345") (.v4 0) surroundRequest = .accepted config ∧
      config.audio.customSurroundParams = true ∧ ¬ValidSurround config.audio := by
  refine ⟨_, surround_accepted "606012345", by decide +kernel, fun hvalid => ?_⟩
  obtain ⟨stream, hstream, haccepts, -⟩ := hvalid.custom (by decide +kernel)
  have hstreams := haccepts.streams
  have heq : encoderStream (adjustConfig plainEnv (surroundLaunch "606012345") [] surroundConfig 0).audio =
      some (applySurroundParams (streamConfigs .surround51) ⟨6, 0, 6, [0, 1, 2, 3, 4, 5]⟩) := by
    decide +kernel
  rw [heq] at hstream
  obtain rfl := Option.some.inj hstream
  exact absurd hstreams (by decide)

end MidnightSun.Audio
