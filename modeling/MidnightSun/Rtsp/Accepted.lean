import MidnightSun.Audio.StreamConfig
import MidnightSun.Stream.BlockNumbers

/-!
# What an accepted configuration does later (src/video.cpp, src/video.h, src/audio.cpp, src/platform/linux)

`cmd_announce` checks none of the numbers of a configuration.  The encoder, the displays, the audio capture and the
video broadcast of the Linux build compute with them.
-/

namespace MidnightSun.Video

open Util Rtsp

/-! ### The encoder setup (`make_avcodec_encode_session`) -/

/-- What the computations read of the host's configuration. -/
structure Host where
  maxBitrate : ℤ := 0
  vbvPercentageIncrease : ℤ := 0
  fecPercentage : ℤ := 20
  /-- the range in which the option is read -/
  fec_between : 1 ≤ fecPercentage ∧ fecPercentage ≤ 255 := by decide

/-- An encoder: its kind, the flags that the rate control depends on, and the threads it is given at least. -/
structure Encoder where
  hardware : Bool
  noRcBufLimit : Bool := false
  singleSliceOnly : Bool := false
  nvenc : Bool := false
  minThreads : ℤ := 2

/-- The bitrate that is asked for, in kilobits. -/
def limitedBitrate (host : Host) (config : VideoConfig) : ℤ :=
  if 0 < host.maxBitrate then min config.bitrate host.maxBitrate else config.bitrate

/-- `ctx->slices`. -/
def Encoder.slices (encoder : Encoder) (config : VideoConfig) : ℤ :=
  if encoder.singleSliceOnly then 1
  else if encoder.hardware then config.slicesPerFrame else max config.slicesPerFrame encoder.minThreads

/-- `AVRational`. -/
structure AVRational where
  num : ℤ
  den : ℤ

section FrameRate

variable (avD2q : ℤ → AVRational)

def framerateX100ToRational (framerateX100 : ℤ) : Option AVRational :=
  if framerateX100.tmod 2997 = 0 then
    (checkInt (framerateX100.tdiv 2997 * 30000)).map fun num => { num := num, den := 1001 }
  else if framerateX100 = 2397 ∨ framerateX100 = 2398 then some { num := 24000, den := 1001 }
  else some (avD2q framerateX100)

end FrameRate

/-- What is computed of `drmModeModeInfo`: its sizes have 16 bits, the clock and the refresh rate 32. -/
structure DisplayMode where
  clock : ℕ
  hdisplay : ℕ
  hsyncStart : ℕ
  hsyncEnd : ℕ
  htotal : ℕ
  vdisplay : ℕ
  vsyncStart : ℕ
  vsyncEnd : ℕ
  vtotal : ℕ
  vrefresh : ℕ

/-- `HeadlessDisplay::setup_vkms`. -/
def setupVkms (w h refresh : ℤ) : Option DisplayMode := do
  -- the size of the dumb buffer
  let _ ← toUint 32 w
  let _ ← toUint 32 h
  let area ← checkInt (w * h)
  let product ← checkInt (area * refresh)
  let clock ← toUint 32 (product.tdiv 1000)
  let hdisplay ← toUint 16 w
  let hsyncStart ← toUint 16 (w + 48)
  let hsyncEnd ← toUint 16 (w + 48 + 32)
  let htotal ← toUint 16 (w + 48 + 32 + 80)
  let vdisplay ← toUint 16 h
  let vsyncStart ← toUint 16 (h + 3)
  let vsyncEnd ← toUint 16 (h + 3 + 5)
  let vtotal ← toUint 16 (h + 3 + 5 + 24)
  let vrefresh ← toUint 32 refresh
  some
    { clock := clock, hdisplay := hdisplay, hsyncStart := hsyncStart, hsyncEnd := hsyncEnd, htotal := htotal
      vdisplay := vdisplay, vsyncStart := vsyncStart, vsyncEnd := vsyncEnd, vtotal := vtotal, vrefresh := vrefresh }

/-- The numbers for which they are. -/
structure InRange (avD2q : ℤ → AVRational) (host : Host) (config : Config) : Prop where
  packetsize : 16 < config.packetsize ∧ config.packetsize ≤ 65551
  minRequiredFecPackets : 0 ≤ config.minRequiredFecPackets ∧
    config.minRequiredFecPackets + 25500 / (100 + host.fecPercentage) ≤ 524288
  bitrate : -2147483 ≤ limitedBitrate host config.monitor ∧ limitedBitrate host config.monitor ≤ 2147483
  framerate : 2 ≤ config.monitor.framerate ∧ config.monitor.framerate ≤ 214748364
  vbv : 0 < host.vbvPercentageIncrease →
    FitsInt ((limitedBitrate host config.monitor * 1000).tdiv config.monitor.framerate * host.vbvPercentageIncrease)
  ntsc : 0 < config.monitor.framerateX100 → config.monitor.framerateX100.tmod 2997 = 0 →
    config.monitor.framerateX100 ≤ 214531254
  singleFrame : ∀ fps, 0 < config.monitor.framerateX100 →
    framerateX100ToRational avD2q config.monitor.framerateX100 = some fps →
      FitsInt ((limitedBitrate host config.monitor * 1000 * fps.den).tdiv fps.num)
  width : 0 ≤ config.monitor.width ∧ config.monitor.width ≤ 65375
  height : 0 ≤ config.monitor.height ∧ config.monitor.height ≤ 65503
  image : 4 * (config.monitor.width * config.monitor.height) < 2 ^ 31
  clock : config.monitor.width * config.monitor.height * config.monitor.framerate < 2 ^ 31
  packetDuration : 0 ≤ config.audio.packetDuration ∧ config.audio.packetDuration ≤ 44739

/-! ### The rate control -/

section FrameRate

variable {avD2q : ℤ → AVRational}

end FrameRate

/-! ### The displays and the audio capture -/

end MidnightSun.Video
