import MidnightSun.Net.Address
import MidnightSun.Util.FromView

/-!
# The ANNOUNCE request (src/rtsp.cpp, `cmd_announce`)

From the payload of the request to the configuration of a stream session, or to the refusal that is sent instead.
-/

namespace MidnightSun.Rtsp

open Util Net

/-! ### Configurations (src/audio.h, src/video.h, src/stream.h) -/

/-- `audio::stream_params_t`. -/
structure StreamParams where
  channelCount : ℤ
  streams : ℤ
  coupledStreams : ℤ
  mapping : List UInt8
  deriving DecidableEq

/-- `audio::config_t`, its flags as fields. -/
structure AudioConfig where
  packetDuration : ℤ
  channels : ℤ
  mask : ℤ
  customStreamParams : Option StreamParams := none
  highQuality : Bool
  hostAudio : Bool
  customSurroundParams : Bool := false
  continuousAudio : Bool := false
  deriving DecidableEq

/-- `video::config_t`. -/
structure VideoConfig where
  width : ℤ
  height : ℤ
  framerate : ℤ
  framerateX100 : ℤ
  bitrate : ℤ
  slicesPerFrame : ℤ
  numRefFrames : ℤ
  encoderCscMode : ℤ
  videoFormat : ℤ
  dynamicRange : ℤ
  chromaSamplingType : ℤ
  enableIntraRefresh : ℤ
  deriving DecidableEq

/-- `stream::config_t`. -/
structure Config where
  audio : AudioConfig
  monitor : VideoConfig
  packetsize : ℤ
  minRequiredFecPackets : ℤ
  mlFeatureFlags : ℤ
  controlProtocolType : ℤ
  audioQosType : ℤ
  videoQosType : ℤ
  encryptionFlagsEnabled : BitVec 32
  deriving DecidableEq

/-- The bits of the encryption flags, which the client protocol library defines. -/
structure EncryptionFlags where
  controlV2 : BitVec 32
  video : BitVec 32
  audio : BitVec 32

/-- A flag is enabled in a configuration. -/
def Config.enables (config : Config) (flag : BitVec 32) : Bool := config.encryptionFlagsEnabled &&& flag ≠ 0

/-- What `cmd_announce` reads of the launch session. -/
structure LaunchParams where
  hostAudio : Bool := false
  surroundParams : Str := []
  continuousAudio : Bool := false

/-- What `cmd_announce` reads of the host. -/
structure AnnounceEnv where
  ss : EncryptionFlags
  encryption : EncryptionConfig := {}
  activeHevcMode : ℤ := 0
  activeAv1Mode : ℤ := 0
  fecPercentage : ℤ := 20
  /-- `configuredBitrateKbps /= 100.f / (100 - fec_percentage)`, a computation on floating point numbers -/
  scaleBitrate : ℤ → ℤ

/-! ### The payload -/

def isLineBreak (ch : UInt8) : Bool := ch = 10 || ch = 13

/-- The lines of the payload from a position with `line` read since the last break; `skip` says that line breaks
are skipped.  A last line without a line break is not a line. -/
def splitLines (skip : Bool) (line : Str) : Str → List Str
  | [] => []
  | ch :: payload =>
    if isLineBreak ch then
      if skip then splitLines true [] payload else line :: splitLines true [] payload
    else splitLines false (line ++ [ch]) payload

/-- The value of an attribute line, without one space at its end. -/
def trimSpace (val : Str) : Str := if val.getLast? = some 32 then val.dropLast else val

/-- The attribute of a line `a=name:value`; without a colon the whole line is the value. -/
def attributeOf (line : Str) : Option (Str × Str) :=
  if line.take 2 = str "a=" then
    match line.idxOf? 58 with
    | some pos => some ((line.take pos).drop 2, trimSpace (line.drop (pos + 1)))
    | none => some (line.drop 2, trimSpace line)
  else none

/-- The parameters that `try_emplace` adds. -/
def defaults : List (Str × Str) :=
  [("x-nv-video[0].encoderCscMode", "0"), ("x-nv-vqos[0].bitStreamFormat", "0"),
    ("x-nv-video[0].dynamicRangeMode", "0"), ("x-nv-aqos.packetDuration", "5"),
    ("x-nv-general.useReliableUdp", "1"), ("x-nv-vqos[0].fec.minRequiredFecPackets", "0"),
    ("x-nv-general.featureFlags", "135"), ("x-ml-general.featureFlags", "0"),
    ("x-nv-vqos[0].qosTrafficType", "5"), ("x-nv-aqos.qosTrafficType", "4"),
    ("x-ml-video.configuredBitrateKbps", "0"), ("x-ss-general.encryptionEnabled", "0"),
    ("x-ss-video[0].chromaSamplingType", "0"), ("x-ss-video[0].intraRefresh", "0"),
    ("x-nv-video[0].clientRefreshRateX100", "0")].map fun p => (str p.1, str p.2)

/-- `args`, with the defaults: of several values of a name the first counts. -/
def announceArgs (payload : Str) : List (Str × Str) :=
  (splitLines false [] payload).filterMap attributeOf ++ defaults

/-! ### The configuration -/

/-- `util::from_view(args.at(name))`; `none` is `std::out_of_range`. -/
def argAt (args : List (Str × Str)) (name : String) : Option (BitVec 64) := (args.lookup (str name)).map fromView

/-- The arguments of the audio stream. -/
def readAudio (launch : LaunchParams) (args : List (Str × Str)) : Option AudioConfig := do
  let channels ← argAt args "x-nv-audio.surround.numChannels"
  let mask ← argAt args "x-nv-audio.surround.channelMask"
  let packetDuration ← argAt args "x-nv-aqos.packetDuration"
  let audioQuality ← argAt args "x-nv-audio.surround.AudioQuality"
  some
    { packetDuration := toInt packetDuration, channels := toInt channels, mask := toInt mask
      highQuality := audioQuality ≠ 0, hostAudio := launch.hostAudio }

/-- The arguments of the video stream. -/
def readMonitor (args : List (Str × Str)) : Option VideoConfig := do
  let height ← argAt args "x-nv-video[0].clientViewportHt"
  let width ← argAt args "x-nv-video[0].clientViewportWd"
  let framerate ← argAt args "x-nv-video[0].maxFPS"
  let framerateX100 ← argAt args "x-nv-video[0].clientRefreshRateX100"
  let bitrate ← argAt args "x-nv-vqos[0].bw.maximumBitrateKbps"
  let slicesPerFrame ← argAt args "x-nv-video[0].videoEncoderSlicesPerFrame"
  let numRefFrames ← argAt args "x-nv-video[0].maxNumReferenceFrames"
  let encoderCscMode ← argAt args "x-nv-video[0].encoderCscMode"
  let videoFormat ← argAt args "x-nv-vqos[0].bitStreamFormat"
  let dynamicRange ← argAt args "x-nv-video[0].dynamicRangeMode"
  let chromaSamplingType ← argAt args "x-ss-video[0].chromaSamplingType"
  let enableIntraRefresh ← argAt args "x-ss-video[0].intraRefresh"
  some
    { width := toInt width, height := toInt height, framerate := toInt framerate
      framerateX100 := toInt framerateX100, bitrate := toInt bitrate, slicesPerFrame := toInt slicesPerFrame
      numRefFrames := toInt numRefFrames, encoderCscMode := toInt encoderCscMode, videoFormat := toInt videoFormat
      dynamicRange := toInt dynamicRange, chromaSamplingType := toInt chromaSamplingType
      enableIntraRefresh := toInt enableIntraRefresh }

/-- The block that reads the arguments, with `configuredBitrateKbps`. -/
def readConfig (ss : EncryptionFlags) (launch : LaunchParams) (args : List (Str × Str)) : Option (Config × ℤ) := do
  let audio ← readAudio launch args
  let controlProtocolType ← argAt args "x-nv-general.useReliableUdp"
  let packetsize ← argAt args "x-nv-video[0].packetSize"
  let minRequiredFecPackets ← argAt args "x-nv-vqos[0].fec.minRequiredFecPackets"
  let mlFeatureFlags ← argAt args "x-ml-general.featureFlags"
  let audioQosType ← argAt args "x-nv-aqos.qosTrafficType"
  let videoQosType ← argAt args "x-nv-vqos[0].qosTrafficType"
  let encryptionEnabled ← argAt args "x-ss-general.encryptionEnabled"
  let featureFlags ← argAt args "x-nv-general.featureFlags"
  let monitor ← readMonitor args
  let configuredBitrateKbps ← argAt args "x-ml-video.configuredBitrateKbps"
  -- legacy clients announce audio encryption in the feature flags
  let legacyAudio := if featureFlags &&& 0x20 ≠ 0 then ss.audio else 0
  some
    ({ audio := audio, monitor := monitor
       packetsize := toInt packetsize, minRequiredFecPackets := toInt minRequiredFecPackets
       mlFeatureFlags := toInt mlFeatureFlags, controlProtocolType := toInt controlProtocolType
       audioQosType := toInt audioQosType, videoQosType := toInt videoQosType
       encryptionFlagsEnabled := encryptionEnabled.setWidth 32 ||| legacyAudio },
      configuredBitrateKbps.toInt)

/-- Does `0.0.0.0` occur in the text. -/
def findsWildcard (content : Str) : Bool := content.tails.any fun t => (str "0.0.0.0").isPrefixOf t

/-- The audio quality of a stereo client: the last `Host` option decides. -/
def stereoQuality (hosts : List Str) (audio : AudioConfig) : AudioConfig :=
  match hosts.getLast? with
  | some content => { audio with highQuality := !findsWildcard content }
  | none => audio

/-- The loop over the channel mapping: what it stores, and whether every entry is a channel. -/
def readMapping (c : UInt8) : Str → List UInt8 × Bool
  | [] => ([], true)
  | ch :: chars =>
    if ch - 48 ≥ c then ([ch - 48], false)
    else ((ch - 48) :: (readMapping c chars).1, (readMapping c chars).2)

/-- The custom surround parameters of the launch session. -/
def surroundAudio (params : Str) (audio : AudioConfig) : AudioConfig :=
  match params with
  | c :: n :: m :: x :: rest =>
    let c := c - 48
    let n := n - 48
    let m := m - 48
    if (c = 6 ∨ c = 8) ∧ (c.toNat : ℤ) = audio.channels ∧ n.toNat + m.toNat = c.toNat ∧
        params.length = c.toNat + 3 then
      let (mapping, valid) := readMapping c (x :: rest)
      { audio with
        customStreamParams :=
          some { channelCount := c.toNat, streams := n.toNat, coupledStreams := m.toNat, mapping := mapping }
        customSurroundParams := valid }
    else { audio with customSurroundParams := false }
  | _ => audio

/-- The bitrate of the encoder, when the client configured one. -/
def adjustBitrate (env : AnnounceEnv) (audio : AudioConfig) (kbps : ℤ) : ℤ :=
  let kbps := if env.fecPercentage ≤ 80 then env.scaleBitrate kbps else kbps
  let kbps := kbps - min ((if audio.highQuality then 256 else 96) * audio.channels) (kbps.tdiv 5)
  kbps - min 500 (kbps.tdiv 10)

/-- An ANNOUNCE request: its payload and the contents of its `Host` options. -/
structure AnnounceRequest where
  payload : Str
  hosts : List Str := []

/-- What `cmd_announce` decides before it allocates a session. -/
inductive Announced where
  | badRequest
  | forbidden
  | accepted (config : Config)
  deriving DecidableEq

def Announced.isAccepted : Announced → Bool
  | accepted _ => true
  | _ => false

/-- The configuration after the audio and bitrate adjustments. -/
def adjustConfig (env : AnnounceEnv) (launch : LaunchParams) (hosts : List Str) (config : Config) (kbps : ℤ) :
    Config :=
  let audio :=
    if config.audio.channels = 2 then stereoQuality hosts config.audio
    else surroundAudio launch.surroundParams config.audio
  let audio := if launch.continuousAudio then { audio with continuousAudio := true } else audio
  let bitrate := if kbps ≠ 0 then toInt (BitVec.ofInt 64 (adjustBitrate env audio kbps)) else config.monitor.bitrate
  { config with audio := audio, monitor := { config.monitor with bitrate := bitrate } }

/-- `cmd_announce`, up to the call of `session::alloc`, for a client at `address`. -/
def cmdAnnounce (env : AnnounceEnv) (launch : LaunchParams) (address : Address) (req : AnnounceRequest) : Announced :=
  match readConfig env.ss launch (announceArgs req.payload) with
  | none => .badRequest
  | some (config, kbps) =>
    let config := adjustConfig env launch req.hosts config kbps
    if config.monitor.videoFormat = 1 ∧ env.activeHevcMode = 1 then .badRequest
    else if config.monitor.videoFormat = 2 ∧ env.activeAv1Mode = 1 then .badRequest
    else if encryptionModeForAddress env.encryption address = .mandatory ∧
        config.encryptionFlagsEnabled &&& (env.ss.video ||| env.ss.audio) ≠
          env.ss.video ||| env.ss.audio then .forbidden
    else .accepted config

/-! ### A request that is accepted -/

/-- The payload with the given attributes. -/
def payloadOf (attributes : List (String × String)) : Str :=
  attributes.flatMap fun a => str "a=" ++ str a.1 ++ [58] ++ str a.2 ++ [13, 10]

/-- A client that asks for three parity shards a block and no frames a second. -/
def carelessRequest : AnnounceRequest where
  payload := payloadOf
    [("x-nv-video[0].packetSize", "1024"), ("x-nv-vqos[0].fec.minRequiredFecPackets", "3"),
      ("x-nv-video[0].clientViewportWd", "1920"), ("x-nv-video[0].clientViewportHt", "1080"),
      ("x-nv-video[0].maxFPS", "0"), ("x-nv-vqos[0].bw.maximumBitrateKbps", "10000"),
      ("x-nv-audio.surround.numChannels", "2"), ("x-nv-audio.surround.channelMask", "3"),
      ("x-nv-audio.surround.AudioQuality", "0"), ("x-nv-video[0].videoEncoderSlicesPerFrame", "1"),
      ("x-nv-video[0].maxNumReferenceFrames", "1")]

def carelessConfig : Config where
  audio := { packetDuration := 5, channels := 2, mask := 3, highQuality := false, hostAudio := false }
  monitor :=
    { width := 1920, height := 1080, framerate := 0, framerateX100 := 0, bitrate := 10000, slicesPerFrame := 1
      numRefFrames := 1, encoderCscMode := 0, videoFormat := 0, dynamicRange := 0, chromaSamplingType := 0
      enableIntraRefresh := 0 }
  packetsize := 1024
  minRequiredFecPackets := 3
  mlFeatureFlags := 0
  controlProtocolType := 1
  audioQosType := 4
  videoQosType := 5
  encryptionFlagsEnabled := 0

/-- A host that accepts it. -/
def plainEnv : AnnounceEnv where
  ss := { controlV2 := 1, video := 2, audio := 4 }
  scaleBitrate := id

theorem careless_accepted : cmdAnnounce plainEnv {} (.v4 0) carelessRequest = .accepted carelessConfig := by
  decide +kernel

end MidnightSun.Rtsp
