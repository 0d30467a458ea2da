import Mathlib.Data.Int.Init
import MidnightSun.Lib.Bytes
import MidnightSun.Nvhttp.Pairing
import MidnightSun.Util.Decimal

/-!
# The session of a launch request (src/nvhttp.cpp, src/rtsp.h)

`make_launch_session` reads a `launch_session_t` off the arguments of `/launch` or `/resume`.
-/

namespace MidnightSun.Nvhttp

open Lib Util

/-- `launch_session_t`. -/
structure LaunchSession where
  id : UInt32
  gcmKey : Str
  iv : Str
  avPingPayload : Str
  controlConnectData : UInt32
  hostAudio : Bool
  uniqueId : Str
  width : Int32
  height : Int32
  fps : Int32
  gcmap : ℤ
  appid : ℤ
  surroundInfo : ℤ
  surroundParams : Str
  continuousAudio : Bool
  enableHdr : Bool
  enableSops : Bool
  /-- the key of the cipher -/
  rtspCipher : Option Str
  rtspUrlScheme : Str
  rtspIvCounter : UInt32 := 0
  deriving DecidableEq

/-- What `RAND_bytes` gives. -/
structure LaunchRandom where
  rawPayload : Str
  controlConnectData : UInt32

/-- `get_arg`; `none` is `std::out_of_range`. -/
def getArg (args : Args) (name : String) (defaultValue : Option String := none) : Option Str :=
  (args.find name).or (defaultValue.map str)

/-- What `std::getline` with a delimiter returns one after the other: nothing follows a delimiter at the end. -/
def getlines (delim : UInt8) (s : Str) : List Str :=
  let segments := s.splitOn delim
  if segments.getLast? = some [] then segments.dropLast else segments

/-- `atoi`.  For a number that is no `int` the standard leaves the result open; this one is glibc's. -/
def atoi (s : Str) : Int32 :=
  let s := s.dropWhile fun c => c == 32 || (9 ≤ c && c ≤ 13)
  let digits := if s.head? = some 45 ∨ s.head? = some 43 then s.tail else s
  let n : ℤ := (digits.takeWhile fun c => 48 ≤ c && c ≤ 57).foldl (fun n c => 10 * n + (c.toNat - 48)) 0
  Int32.ofInt (max (-2 ^ 63) (min (2 ^ 63 - 1) (if s.head? = some 45 then -n else n)))

/-- `util::from_view` of an argument where a `bool` is wanted. -/
def flag (arg : Str) : Bool := fromView arg != 0

/-- `make_launch_session`. -/
def makeLaunchSession (id : UInt32) (random : LaunchRandom) (hostAudio : Bool) (args : Args) :
    Option LaunchSession := do
  let rikey ← getArg args "rikey"
  let gcmKey := fromHexVec rikey true
  let mode ← getArg args "mode" (some "0x0x0")
  let segments := getlines 120 mode
  let uniqueId ← getArg args "uniqueid" (some "unknown")
  let appid ← getArg args "appid" (some "unknown")
  let sops ← getArg args "sops" (some "0")
  let surroundAudioInfo ← getArg args "surroundAudioInfo" (some "196610")
  let surroundParams ← getArg args "surroundParams" (some "")
  let continuousAudio ← getArg args "continuousAudio" (some "0")
  let gcmap ← getArg args "gcmap" (some "0")
  let hdrMode ← getArg args "hdrMode" (some "0")
  let corever ← getArg args "corever" (some "0")
  let rtspCipher := if 1 ≤ (fromView corever).toInt then some gcmKey else none
  let rikeyid ← getArg args "rikeyid"
  let prependIv := ((fromView rikeyid).setWidth 32).toNat
  return {
    id
    gcmKey
    iv := (leBytes 4 prependIv).reverse ++ List.replicate 12 0
    avPingPayload := hexVec random.rawPayload false
    controlConnectData := random.controlConnectData
    hostAudio
    uniqueId
    width := (segments[0]?.map atoi).getD 0
    height := (segments[1]?.map atoi).getD 0
    fps := (segments[2]?.map atoi).getD 0
    gcmap := toInt (fromView gcmap)
    appid := toInt (fromView appid)
    surroundInfo := toInt (fromView surroundAudioInfo)
    surroundParams
    continuousAudio := flag continuousAudio
    enableHdr := flag hdrMode
    enableSops := flag sops
    rtspCipher
    rtspUrlScheme := str (if rtspCipher.isSome then "rtspenc://" else "rtsp://") }

/-- Encrypted RTSP: the client reports a core version of at least 1. -/
def Args.encryptsRtsp (args : Args) : Bool :=
  1 ≤ (fromView ((args.find "corever").getD (str "0"))).toInt

lemma getArg_eq_some {args : Args} {name : String} (h : (args.find name).isSome = true) :
    ∃ arg, getArg args name = some arg := by
  obtain ⟨arg, harg⟩ := Option.isSome_iff_exists.mp h
  exact ⟨arg, by rw [getArg, harg, Option.some_or]⟩

lemma getArg_default (args : Args) (name value : String) :
    getArg args name (some value) = some ((args.find name).getD (str value)) := by
  unfold getArg
  cases args.find name <;> rfl

theorem makeLaunchSession_eq_some {args : Args} (id : UInt32) (random : LaunchRandom) (hostAudio : Bool)
    (hrikey : (args.find "rikey").isSome = true) (hrikeyid : (args.find "rikeyid").isSome = true) :
    ∃ session, makeLaunchSession id random hostAudio args = some session ∧
      session.rtspCipher.isSome = args.encryptsRtsp := by
  obtain ⟨rikey, hrikey⟩ := getArg_eq_some hrikey
  obtain ⟨rikeyid, hrikeyid⟩ := getArg_eq_some hrikeyid
  unfold makeLaunchSession
  simp only [hrikey, hrikeyid, getArg_default, Option.bind_eq_bind, Option.bind_some]
  refine ⟨_, rfl, ?_⟩
  unfold Args.encryptsRtsp
  split
  next h => simp [h]
  next h => simp [h]

example : (getlines 120 (str "1920x1080x60x")).map atoi = [1920, 1080, 60] := by decide +kernel

end MidnightSun.Nvhttp
