import MidnightSun.Lib.Run
import MidnightSun.Stream.Session

/-!
# Launches, RTSP requests and streams

The system of all launch sessions and of the stream sessions that ANNOUNCE requests create from them.  Any number of
requests can arrive on the sockets of one launch session, in any order, and every session sends and receives at any
time.  The log of what was sent and the list of what control messages did are ghost state.
-/

namespace MidnightSun.Stream

open Lib Net Rtsp

/-- Who sends a message. -/
inductive Sender where
  | rtsp
  | control (k : ℕ)
  | video (k : ℕ)
  | audio (k : ℕ)
  deriving DecidableEq

/-- A message with its sender and the launch session whose key protects it. -/
structure Sent where
  launch : ℕ
  sender : Sender
  message : Message
  deriving DecidableEq

/-- All launch sessions and all stream sessions, in the order in which they were created. -/
structure World where
  launches : List LaunchSession
  sessions : List Session
  /-- ghost: all messages sent -/
  sent : List Sent
  /-- ghost: what the control messages of each session did -/
  actions : List (ℕ × Action)

def World.boot : World where
  launches := []
  sessions := []
  sent := []
  actions := []

/-- An RTSP request, as far as the handlers tell requests apart. -/
inductive Request where
  /-- a message that cannot be read, decrypted or parsed -/
  | malformed
  /-- a request that only gets an answer -/
  | answered (status : ℕ)
  /-- ANNOUNCE; `started` is the outcome of `session::start` -/
  | announce (req : AnnounceRequest) (started : Bool)

/-- What can happen. -/
inductive Op where
  /-- `launch` or `resume`, from an address -/
  | launch (address : Address) (launch : LaunchSession)
  /-- a request on a socket of the launch session `n` -/
  | request (n : ℕ) (address : Address) (req : Request)
  | control (k : ℕ) (plaintext : Str)
  | shard (k : ℕ) (shard : Str)
  | audio (k : ℕ) (packet : Str)
  | receive (k type : ℕ) (payload : Str)

variable (env : AnnounceEnv) (lib : Library)

/-- The session that an ANNOUNCE request starts, and the status of its answer. -/
def announce (n : ℕ) (address : Address) (launch : LaunchSession) (req : AnnounceRequest) (started : Bool) :
    Option Session × ℕ :=
  match cmdAnnounce env launch.params address req with
  | .badRequest => (none, 400)
  | .forbidden => (none, 403)
  | .accepted config => if started then (some (alloc env.ss n address config launch), 200) else (none, 500)

/-- The session that a request starts, and the status of its answer. -/
def handleRequest (n : ℕ) (address : Address) (launch : LaunchSession) : Request → Option Session × ℕ
  | .malformed => (none, 400)
  | .answered status => (none, status)
  | .announce req started => announce env n address launch req started

/-- The state after the session `k` sent `message`. -/
def World.sends (w : World) (k : ℕ) (s : Session) (sender : Sender) (message : Message) : World :=
  { w with
    sessions := w.sessions.set k s
    sent := w.sent ++ [{ launch := s.launch, sender := sender, message := message }] }

/-- A launch session is raised, unless its RTSP is not encrypted where it must be. -/
def launchAllowed (address : Address) (launch : LaunchSession) : Prop :=
  launch.rtspCipher = false → encryptionModeForAddress env.encryption address ≠ .mandatory

instance (address : Address) (launch : LaunchSession) : Decidable (launchAllowed env address launch) := by
  unfold launchAllowed; infer_instance

/-- One step; `none` when there is no such launch session or stream session. -/
def World.step (w : World) : Op → Option World
  | .launch address launch =>
    some (if launchAllowed env address launch then
      { w with launches := w.launches ++ [{ launch with rtspIvCounter := 0 }] } else w)
  | .request n address req =>
    w.launches[n]?.map fun launch =>
      let (session, status) := handleRequest env n address launch req
      let (launch, message) := respond lib launch status
      { w with
        launches := w.launches.set n launch
        sessions := w.sessions ++ session.toList
        sent := w.sent ++ [{ launch := n, sender := .rtsp, message := message }] }
  | .control k plaintext =>
    w.sessions[k]?.map fun s =>
      let (s, message) := encodeControl lib env.ss s plaintext
      w.sends k s (.control k) message
  | .shard k shard =>
    w.sessions[k]?.map fun s =>
      let (s, message) := sendShard lib s shard
      w.sends k s (.video k) message
  | .audio k packet =>
    w.sessions[k]?.map fun s =>
      match sendAudio lib env.ss s packet with
      | (s, some message) => w.sends k s (.audio k) message
      | (s, none) => { w with sessions := w.sessions.set k s }
  | .receive k type payload =>
    w.sessions[k]?.map fun s =>
      let (s, actions) := call lib env.ss s type payload
      { w with
        sessions := w.sessions.set k s
        actions := w.actions ++ actions.map fun a => (k, a) }

/-- The transition relation. -/
abbrev WorldStep : World → Op → World → Prop := ofPartial fun w op => w.step env lib op

/-! ### Sessions along a run -/

variable {env lib}

lemma sessions_of_set {w : World} {k : ℕ} {s s' : Session} (hs : w.sessions[k]? = some s) (hset : s.SameSetup s')
    (j : ℕ) (u : Session) (hu : w.sessions[j]? = some u) :
    ∃ u', (w.sessions.set k s')[j]? = some u' ∧ u.SameSetup u' := by
  obtain ⟨hk, -⟩ := List.getElem?_eq_some_iff.mp hs
  rw [List.getElem?_set]
  by_cases hj : k = j
  · subst hj
    rw [hs] at hu
    obtain rfl := Option.some.inj hu
    exact ⟨s', by rw [if_pos rfl, if_pos hk], hset⟩
  · exact ⟨u, by rw [if_neg hj, hu], rfl, rfl, rfl, rfl⟩

/-- A session stays in its place and keeps what `alloc` gave it. -/
theorem setup_step {w w' : World} {op : Op} (h : WorldStep env lib w op w') (k : ℕ) (s : Session)
    (hs : w.sessions[k]? = some s) : ∃ s', w'.sessions[k]? = some s' ∧ s.SameSetup s' := by
  have hsame : s.SameSetup s := ⟨rfl, rfl, rfl, rfl⟩
  cases op with
  | launch address l =>
    have hw := Option.some.inj h
    split at hw <;> subst hw <;> exact ⟨s, hs, hsame⟩
  | request m address req =>
    obtain ⟨l, hl, rfl⟩ := Option.map_eq_some_iff.mp h
    obtain ⟨hk, -⟩ := List.getElem?_eq_some_iff.mp hs
    exact ⟨s, (List.getElem?_append_left hk).trans hs, hsame⟩
  | control j plaintext =>
    obtain ⟨u, hu, rfl⟩ := Option.map_eq_some_iff.mp h
    exact sessions_of_set hu (encodeControl_setup lib env.ss u plaintext) k s hs
  | shard j shard =>
    obtain ⟨u, hu, rfl⟩ := Option.map_eq_some_iff.mp h
    exact sessions_of_set hu (sendShard_setup lib u shard) k s hs
  | audio j packet =>
    obtain ⟨u, hu, rfl⟩ := Option.map_eq_some_iff.mp h
    have hset := (sendAudio_counters lib env.ss u packet).toSameSetup
    generalize sendAudio lib env.ss u packet = r at hset
    obtain ⟨u', message⟩ := r
    cases message <;> exact sessions_of_set hu hset k s hs
  | receive j type payload =>
    obtain ⟨u, hu, rfl⟩ := Option.map_eq_some_iff.mp h
    exact sessions_of_set hu (call_counters lib env.ss u type payload).toSameSetup k s hs

/-- A launch session stays in its place and keeps its cipher. -/
theorem launch_step {w w' : World} {op : Op} (h : WorldStep env lib w op w') (n : ℕ) (l : LaunchSession)
    (hl : w.launches[n]? = some l) : ∃ l', w'.launches[n]? = some l' ∧ l'.rtspCipher = l.rtspCipher := by
  cases op with
  | launch address l₀ =>
    have hw := Option.some.inj h
    obtain ⟨hn, -⟩ := List.getElem?_eq_some_iff.mp hl
    split at hw
    · subst hw
      exact ⟨l, (List.getElem?_append_left hn).trans hl, rfl⟩
    · subst hw
      exact ⟨l, hl, rfl⟩
  | request m address req =>
    obtain ⟨l₀, hl₀, rfl⟩ := Option.map_eq_some_iff.mp h
    obtain ⟨hm, -⟩ := List.getElem?_eq_some_iff.mp hl₀
    by_cases hmn : m = n
    · subst hmn
      rw [hl₀] at hl
      obtain rfl := Option.some.inj hl
      exact ⟨_, by rw [List.getElem?_set, if_pos rfl, if_pos hm], respond_rtspCipher lib l₀ _⟩
    · exact ⟨l, by rw [List.getElem?_set, if_neg hmn, hl], rfl⟩
  | control j plaintext =>
    obtain ⟨u, hu, rfl⟩ := Option.map_eq_some_iff.mp h
    exact ⟨l, hl, rfl⟩
  | shard j shard =>
    obtain ⟨u, hu, rfl⟩ := Option.map_eq_some_iff.mp h
    exact ⟨l, hl, rfl⟩
  | audio j packet =>
    obtain ⟨u, hu, rfl⟩ := Option.map_eq_some_iff.mp h
    split <;> exact ⟨l, hl, rfl⟩
  | receive j type payload =>
    obtain ⟨u, hu, rfl⟩ := Option.map_eq_some_iff.mp h
    exact ⟨l, hl, rfl⟩

/-! ### A host for runs with fixed requests -/

def demoEnv (wanMode : EncryptionMode) : AnnounceEnv where
  ss := { controlV2 := 1, video := 2, audio := 4 }
  encryption := { wanEncryptionMode := wanMode }
  scaleBitrate := id

/-- A library that marks what it encrypts. -/
def demoLibrary : Library where
  gcmEncrypt _ _ plaintext := some (0 :: plaintext)
  gcmDecrypt _ _ cipher := some (cipher.drop 1)
  cbcEncrypt _ _ plaintext := some (0 :: plaintext)
  serializeRtspMessage status := [UInt8.ofNat status]

/-- An ANNOUNCE request of a client that wants the control protocol `protocol` and the encryption `flags`. -/
def demoAnnounce (protocol flags : String) : AnnounceRequest where
  payload :=
    [("x-nv-audio.surround.numChannels", "2"), ("x-nv-audio.surround.channelMask", "3"),
      ("x-nv-audio.surround.AudioQuality", "0"), ("x-nv-general.useReliableUdp", protocol),
      ("x-nv-video[0].packetSize", "1024"), ("x-ss-general.encryptionEnabled", flags),
      ("x-nv-video[0].clientViewportHt", "720"), ("x-nv-video[0].clientViewportWd", "1280"),
      ("x-nv-video[0].maxFPS", "60"), ("x-nv-vqos[0].bw.maximumBitrateKbps", "1000"),
      ("x-nv-video[0].videoEncoderSlicesPerFrame", "1"), ("x-nv-video[0].maxNumReferenceFrames", "1")].flatMap
      fun a => str "a=" ++ str a.1 ++ str ":" ++ str a.2 ++ [10]

def demoLaunch : LaunchSession where
  gcmKey := [1]
  iv := [0, 0, 0, 1]
  rtspCipher := true

end MidnightSun.Stream
