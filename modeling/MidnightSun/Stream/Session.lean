import MidnightSun.Lib.Bytes
import MidnightSun.Rtsp.Announce

/-!
# What a stream session encrypts and decrypts (src/stream.cpp, src/rtsp.cpp)

The encryption of RTSP responses, control messages, video shards and audio packets, with the initialization vector
that each call gives to the cipher, and the way of a received control message to its handler.
-/

namespace MidnightSun.Stream

open Lib Util Net Rtsp

/-- The functions of the crypto and RTSP libraries: encryption and decryption from a key and an initialization
vector, and the text of an RTSP response with a status code. -/
structure Library where
  gcmEncrypt : Str → Str → Str → Option Str
  gcmDecrypt : Str → Str → Str → Option Str
  cbcEncrypt : Str → Str → Str → Option Str
  serializeRtspMessage : ℕ → Str

/-- `launch_session_t`, as far as the streams depend on it. -/
structure LaunchSession where
  gcmKey : Str
  iv : Str
  params : LaunchParams := {}
  /-- `rtsp_cipher` has a value -/
  rtspCipher : Bool
  rtspIvCounter : BitVec 32 := 0

/-- `session_t`, as far as it is about encryption. -/
structure Session where
  /-- the launch session it was allocated from, by its place in the order of launches -/
  launch : ℕ
  /-- `control.expected_peer_address` -/
  address : Address
  config : Config
  gcmKey : Str
  controlSeq : BitVec 32 := 0
  legacyInputEncIv : Str
  /-- `video.cipher` has a value -/
  videoCipher : Bool
  gcmIvCounter : BitVec 64 := 0
  avRiKeyId : BitVec 32
  audioSequenceNumber : BitVec 16 := 0

/-- The first four bytes of the launch session's vector, most significant first. -/
def avRiKeyId (iv : Str) : BitVec 32 := (iv.take 4).foldl (fun n b => n * 256 + b.toBitVec.setWidth 32) 0

/-- `session::alloc`. -/
def alloc (ss : EncryptionFlags) (n : ℕ) (address : Address) (config : Config) (launch : LaunchSession) : Session where
  launch := n
  address := address
  config := config
  gcmKey := launch.gcmKey
  legacyInputEncIv := launch.iv
  videoCipher := config.enables ss.video
  avRiKeyId := avRiKeyId launch.iv

/-! ### Initialization vectors -/

/-- `iv[10] = side; iv[11] = stream` over a 32-bit sequence number in the first bytes. -/
def sequenceIv (seq : BitVec 32) (fixed : String) : Str := leBytes 4 seq.toNat ++ List.replicate 6 0 ++ str fixed

/-- The old style vector of the control stream. -/
def legacyIv (seq : BitVec 32) : Str := UInt8.ofNat seq.toNat :: List.replicate 15 0

/-- The vector of a video shard. -/
def videoIv (counter : BitVec 64) : Str := leBytes 8 counter.toNat ++ List.replicate 3 0 ++ str "V"

/-- The vector of an audio packet. -/
def audioIv (s : Session) : Str :=
  (leBytes 4 (s.avRiKeyId + s.audioSequenceNumber.setWidth 32).toNat).reverse ++ List.replicate 12 0

/-! ### Sending -/

/-- What reaches the network. -/
inductive Wire where
  | plain (bytes : Str)
  | encrypted (bytes : Str)
  /-- an empty message, after a failed encryption -/
  | nothing
  deriving DecidableEq

/-- A message to the client: the vector its encryption was called with, if it was, and what is sent. -/
structure Message where
  iv : Option Str
  wire : Wire
  deriving DecidableEq

variable (lib : Library)

/-- `respond`, with the launch session it leaves. -/
def respond (launch : LaunchSession) (status : ℕ) : LaunchSession × Message :=
  let response := lib.serializeRtspMessage status
  if launch.rtspCipher then
    let counter := launch.rtspIvCounter + 1
    let iv := sequenceIv counter "HR"
    ({ launch with rtspIvCounter := counter },
      { iv := some iv
        wire := match lib.gcmEncrypt launch.gcmKey iv response with
          | some cipher => .encrypted cipher
          | none => .plain response })
  else (launch, { iv := none, wire := .plain response })

/-- `encode_control` and the `send` of its result.  The vector is resized from an empty or an equally long one, so the
bytes that are not written stay zero. -/
def encodeControl (ss : EncryptionFlags) (s : Session) (plaintext : Str) : Session × Message :=
  if s.config.controlProtocolType ≠ 13 then (s, { iv := none, wire := .plain plaintext })
  else
    let seq := s.controlSeq
    let iv := if s.config.enables ss.controlV2 then sequenceIv seq "HC" else legacyIv seq
    ({ s with controlSeq := seq + 1 },
      { iv := some iv
        wire := match lib.gcmEncrypt s.gcmKey iv plaintext with
          | some cipher => .encrypted cipher
          | none => .nothing })

/-- One round of the loop over the shards of a frame.  The result of the encryption is not checked: when it fails, the
shard is sent as it was. -/
def sendShard (s : Session) (shard : Str) : Session × Message :=
  if s.videoCipher then
    let iv := videoIv s.gcmIvCounter
    ({ s with gcmIvCounter := s.gcmIvCounter + 1 },
      { iv := some iv
        wire := match lib.gcmEncrypt s.gcmKey iv shard with
          | some cipher => .encrypted cipher
          | none => .plain shard })
  else (s, { iv := none, wire := .plain shard })

/-- One audio packet through `encode_audio`.  When the encryption fails, the thread ends and nothing is sent. -/
def sendAudio (ss : EncryptionFlags) (s : Session) (packet : Str) : Session × Option Message :=
  if s.config.enables ss.audio then
    let iv := audioIv s
    match lib.cbcEncrypt s.gcmKey iv packet with
    | some cipher =>
      ({ s with audioSequenceNumber := s.audioSequenceNumber + 1 }, some { iv := some iv, wire := .encrypted cipher })
    | none => (s, none)
  else ({ s with audioSequenceNumber := s.audioSequenceNumber + 1 }, some { iv := none, wire := .plain packet })

/-! ### Receiving -/

/-- The entries of `packetTypes` that have a handler. -/
inductive PacketType where
  | startA
  | startB
  | invalidateRefFrames
  | lossStats
  | inputData
  | periodicPing
  | requestIdrFrame
  | encrypted
  deriving DecidableEq

/-- `packetTypes` and the handlers that `controlBroadcastThread` maps. -/
def packetType (type : ℕ) : Option PacketType :=
  [(0x0305, PacketType.startA), (0x0307, .startB), (0x0301, .invalidateRefFrames), (0x0201, .lossStats),
    (0x0206, .inputData), (0x0200, .periodicPing), (0x0302, .requestIdrFrame), (0x0001, .encrypted)].lookup type

/-- What a control message makes the host do. -/
inductive Action where
  /-- the handler of the type runs, on a message that was decrypted or not -/
  | handle (type : PacketType) (payload : Str) (decrypted : Bool)
  /-- `session::stop` -/
  | stop
  deriving DecidableEq

/-- The part of `call` that drops messages. -/
def dropsUnencrypted (s : Session) (type : ℕ) (reinjected : Bool) : Bool :=
  s.config.controlProtocolType = 13 && !reinjected && packetType type ≠ some .encrypted

/-- The handler of a decrypted message: the inner message is handled, unless it is encrypted again. -/
def callDecrypted (plaintext : Str) : List Action :=
  match packetType (leValue (plaintext.take 2)) with
  | none => []
  | some .encrypted => [.stop]
  | some type => [.handle type (plaintext.drop 4) true]

/-- The vector of a received control message. -/
def incomingIv (ss : EncryptionFlags) (s : Session) (seq : BitVec 32) : Str :=
  if s.config.enables ss.controlV2 then sequenceIv seq "CC" else legacyIv seq

/-- The handler of `IDX_ENCRYPTED`. -/
def handleEncrypted (ss : EncryptionFlags) (s : Session) (payload : Str) : List Action :=
  let length := leValue (payload.take 2)
  let seq := BitVec.ofNat 32 (leValue ((payload.drop 2).take 4))
  if length < 16 + 4 + 4 then []
  else
    match lib.gcmDecrypt s.gcmKey (incomingIv ss s seq) ((payload.drop 6).take (length - 4)) with
    | none => [.stop]
    | some plaintext => callDecrypted plaintext

/-- The handler of `IDX_INPUT_DATA`: the old input cipher, in a message that is not encrypted itself.  Its vector
becomes the end of the message. -/
def handleInputData (s : Session) (payload : Str) : Session × List Action :=
  let length := leValue (payload.take 4).reverse
  match lib.gcmDecrypt s.gcmKey s.legacyInputEncIv ((payload.drop 4).take length) with
  | none => (s, [.stop])
  | some plaintext =>
    let iv := if 16 + s.legacyInputEncIv.length ≤ length then payload.drop (payload.length - 16) else s.legacyInputEncIv
    ({ s with legacyInputEncIv := iv }, [.handle .inputData plaintext false])

/-- `control_server_t::call` on a message from the network. -/
def call (ss : EncryptionFlags) (s : Session) (type : ℕ) (payload : Str) : Session × List Action :=
  if dropsUnencrypted s type false then (s, [])
  else
    match packetType type with
    | none => (s, [])
    | some .encrypted => (s, handleEncrypted lib ss s payload)
    | some .inputData => handleInputData lib s payload
    | some type => (s, [.handle type payload false])

/-! ### What a message leaves alone -/

/-- What no message of a session changes. -/
structure Session.SameSetup (s s' : Session) : Prop where
  launch : s'.launch = s.launch
  address : s'.address = s.address
  config : s'.config = s.config
  videoCipher : s'.videoCipher = s.videoCipher

/-- A step that leaves both counters of a session alone. -/
structure Session.SameCounters (s s' : Session) : Prop extends s.SameSetup s' where
  controlSeq : s'.controlSeq = s.controlSeq
  gcmIvCounter : s'.gcmIvCounter = s.gcmIvCounter

@[simp] lemma respond_rtspCipher (l : LaunchSession) (status : ℕ) :
    (respond lib l status).1.rtspCipher = l.rtspCipher := by
  unfold respond
  split <;> rfl

variable (ss : EncryptionFlags)

lemma encodeControl_setup (s : Session) (plaintext : Str) : s.SameSetup (encodeControl lib ss s plaintext).1 := by
  unfold encodeControl
  split <;> exact ⟨rfl, rfl, rfl, rfl⟩

lemma sendShard_setup (s : Session) (shard : Str) : s.SameSetup (sendShard lib s shard).1 := by
  unfold sendShard
  split <;> exact ⟨rfl, rfl, rfl, rfl⟩

lemma sendAudio_counters (s : Session) (packet : Str) : s.SameCounters (sendAudio lib ss s packet).1 := by
  unfold sendAudio
  split
  · dsimp only
    split <;> exact ⟨⟨rfl, rfl, rfl, rfl⟩, rfl, rfl⟩
  · exact ⟨⟨rfl, rfl, rfl, rfl⟩, rfl, rfl⟩

lemma call_counters (s : Session) (type : ℕ) (payload : Str) : s.SameCounters (call lib ss s type payload).1 := by
  have hsame : s.SameCounters s := ⟨⟨rfl, rfl, rfl, rfl⟩, rfl, rfl⟩
  unfold call
  split
  · exact hsame
  · split
    · exact hsame
    · exact hsame
    · unfold handleInputData
      dsimp only
      split <;> exact ⟨⟨rfl, rfl, rfl, rfl⟩, rfl, rfl⟩
    · exact hsame

end MidnightSun.Stream
