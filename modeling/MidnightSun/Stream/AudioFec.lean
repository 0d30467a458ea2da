import Mathlib.Data.List.DropRight
import MidnightSun.Lib.Buffer
import MidnightSun.Lib.Run
import MidnightSun.Stream.Wire

/-!
# Audio packets and their parity (src/stream.cpp, `audioBroadcastThread`)

One thread sends the audio packets of all sessions.  A session keeps its own shards, numbers and FEC header from packet
to packet, and after every fourth packet it sends two parity packets.
-/

namespace MidnightSun.Stream

open Lib Util Net Rtsp

/-! ### Packets -/

/-- `RTPA_DATA_SHARDS`. -/
def rtpaDataShards : ℕ := 4

/-- `RTPA_FEC_SHARDS`. -/
def rtpaFecShards : ℕ := 2

/-- `RTPA_TOTAL_SHARDS`. -/
def rtpaTotalShards : ℕ := rtpaDataShards + rtpaFecShards

/-- `round_to_pkcs7_padded(2048)`. -/
def maxBlockSize : ℕ := (2048 + 15) / 16 * 16

/-- Where `shards_p[x]` points to in the buffer. -/
def shardsP (x : ℕ) : ℕ := x * maxBlockSize

/-- The matrix that replaces the one of the Reed-Solomon library. -/
def parityMatrix : Str := [0x77, 0x40, 0x38, 0x0e, 0xc7, 0xa7, 0x0d, 0x6c]

/-- `RTP_PACKET`; the numbers are sent in network order. -/
structure RtpPacket where
  header : UInt8
  packetType : UInt8
  sequenceNumber : BitVec 16
  timestamp : BitVec 32
  ssrc : BitVec 32
  deriving DecidableEq

/-- `AUDIO_FEC_HEADER`. -/
structure AudioFecHeader where
  fecShardIndex : UInt8
  payloadType : UInt8
  baseSequenceNumber : BitVec 16
  baseTimestamp : BitVec 32
  ssrc : BitVec 32
  deriving DecidableEq

/-- `audio_fec_packet_t`. -/
structure AudioFecPacket where
  rtp : RtpPacket
  fecHeader : AudioFecHeader
  deriving DecidableEq

/-- A data packet, with its header `audio_packet_t`. -/
structure DataPacket where
  rtp : RtpPacket
  payload : Str
  deriving DecidableEq

/-- What the thread sends. -/
inductive AudioMessage where
  | data (packet : DataPacket)
  | fec (packet : AudioFecPacket) (payload : Str)
  deriving DecidableEq

/-- A buffer of `audio::encodeThread`, with the bytes that Opus has filled. -/
structure AudioBuffer where
  bytes : Str
  size_le : bytes.length ≤ 1400

/-- The libraries of the thread: a CBC cipher with padding adds a block at most, and a parity shard, given the matrix,
the data shards and its index, is as long as the data shards. -/
structure AudioLibrary extends Library where
  reedSolomonEncode : Str → List Str → ℕ → Str
  cbcEncrypt_length : ∀ {key iv packet cipher}, cbcEncrypt key iv packet = some cipher →
    cipher.length ≤ packet.length + 16
  reedSolomonEncode_length : ∀ {matrix shards n x}, shards ≠ [] → (∀ shard ∈ shards, shard.length = n) →
    (reedSolomonEncode matrix shards x).length = n

/-! ### A session -/

/-- `session_t`, with what `audio` holds for FEC. -/
structure AudioSession extends Session where
  audioTimestamp : BitVec 32
  shards : Str
  fecPacket : AudioFecPacket

/-- The FEC packet of a session: the fields that never change, and those that do. -/
def audioFecPacket (sequenceNumber : BitVec 16) (fecShardIndex : UInt8) (baseSequenceNumber : BitVec 16)
    (baseTimestamp : BitVec 32) : AudioFecPacket where
  rtp := { header := 0x80, packetType := 127, sequenceNumber := sequenceNumber, timestamp := 0, ssrc := 0 }
  fecHeader :=
    { fecShardIndex := fecShardIndex
      payloadType := 97
      baseSequenceNumber := baseSequenceNumber
      baseTimestamp := baseTimestamp
      ssrc := 0 }

/-- `session::alloc`. -/
def allocAudio (ss : EncryptionFlags) (n : ℕ) (address : Address) (config : Config) (launch : LaunchSession) :
    AudioSession where
  toSession := alloc ss n address config launch
  audioTimestamp := 0
  shards := List.replicate (rtpaTotalShards * maxBlockSize) 0
  fecPacket := audioFecPacket 0 0 0 0

/-- The bytes of a message. -/
def Wire.bytes : Wire → Str
  | .plain bytes => bytes
  | .encrypted bytes => bytes
  | .nothing => []

variable (lib : AudioLibrary) (ss : EncryptionFlags)

/-- `bs` bytes of every data shard. -/
def AudioSession.dataShards (s : AudioSession) (bs : ℕ) : List Str :=
  (List.range rtpaDataShards).map fun x => Buffer.read s.shards (shardsP x) bs

/-- `reed_solomon_encode`, with `bs` bytes of every shard. -/
def AudioSession.encodeParity (s : AudioSession) (bs : ℕ) : AudioSession :=
  { s with
    shards := (List.range rtpaFecShards).foldl (fun shards x =>
      Buffer.write shards (shardsP (rtpaDataShards + x)) (lib.reedSolomonEncode parityMatrix (s.dataShards bs) x))
      s.shards }

/-- The loop over the FEC packets; the send with the number `throwsAt` throws. -/
def AudioSession.sendFec (s : AudioSession) (sequenceNumber : BitVec 16) (bytes : ℕ) (throwsAt : Option ℕ) :
    List ℕ → AudioSession × List AudioMessage
  | [] => (s, [])
  | x :: xs =>
    let fecPacket :=
      { s.fecPacket with
        rtp := { s.fecPacket.rtp with sequenceNumber := sequenceNumber + BitVec.ofNat 16 (x + 1) }
        fecHeader := { s.fecPacket.fecHeader with fecShardIndex := UInt8.ofNat x } }
    let s := { s with fecPacket := fecPacket }
    if throwsAt = some (x + 1) then (s, [])
    else
      let (s', messages) := s.sendFec sequenceNumber bytes throwsAt xs
      (s', .fec fecPacket (Buffer.read s.shards (shardsP (rtpaDataShards + x)) bytes) :: messages)

/-- A session whose packet is encoded, with the numbers of the next one. -/
def AudioSession.store (s : AudioSession) (session : Session) (bytes : Str) : AudioSession :=
  { s with
    toSession := session
    audioTimestamp := s.audioTimestamp + BitVec.ofInt 32 s.config.audio.packetDuration
    shards := Buffer.write s.shards (shardsP (s.audioSequenceNumber.toNat % rtpaDataShards)) bytes }

/-- The FEC header is initialized at the beginning of a block. -/
def AudioSession.beginBlock (s : AudioSession) (sequenceNumber : BitVec 16) (timestamp : BitVec 32) : AudioSession :=
  if sequenceNumber.toNat % rtpaDataShards = 0 then
    { s with
      fecPacket :=
        { s.fecPacket with
          fecHeader :=
            { s.fecPacket.fecHeader with baseSequenceNumber := sequenceNumber, baseTimestamp := timestamp } } }
  else s

/-- One round of the loop for a packet of the session, with what is sent; `none` when the packet is not encoded. -/
def AudioSession.broadcast (s : AudioSession) (packet : AudioBuffer) (throwsAt : Option ℕ) :
    Option (AudioSession × List AudioMessage) :=
  let sequenceNumber := s.audioSequenceNumber
  let timestamp := s.audioTimestamp
  match sendAudio lib.toLibrary ss s.toSession packet.bytes with
  | (_, none) => none
  | (session, some message) =>
    let bytes := message.wire.bytes
    let s := s.store session bytes
    let data : DataPacket :=
      { rtp := { header := 0x80, packetType := 97, sequenceNumber := sequenceNumber, timestamp := timestamp, ssrc := 0 }
        payload := Buffer.read s.shards (shardsP (sequenceNumber.toNat % rtpaDataShards)) bytes.length }
    if throwsAt = some 0 then some (s, [])
    else
      let s := s.beginBlock sequenceNumber timestamp
      if (sequenceNumber.toNat + 1) % rtpaDataShards = 0 then
        let (s, messages) :=
          (s.encodeParity lib bytes.length).sendFec sequenceNumber bytes.length throwsAt (List.range rtpaFecShards)
        some (s, .data data :: messages)
      else some (s, [.data data])

/-! ### The thread -/

structure AudioThread where
  running : Bool := true
  sessions : List AudioSession := []
  /-- ghost: what was sent, and to which session -/
  sent : List (ℕ × AudioMessage) := []

inductive AudioOp where
  | alloc (n : ℕ) (address : Address) (config : Config) (launch : LaunchSession)
  /-- a packet of the queue -/
  | packet (k : ℕ) (packet : AudioBuffer) (throwsAt : Option ℕ)
  | shutdown

def AudioThread.step (t : AudioThread) : AudioOp → Option AudioThread
  | .alloc n address config launch => some { t with sessions := t.sessions ++ [allocAudio ss n address config launch] }
  | .packet k packet throwsAt =>
    if t.running then
      t.sessions[k]?.map fun s =>
        match s.broadcast lib ss packet throwsAt with
        | none => { t with running := false }
        | some (s, messages) =>
          { t with
            sessions := t.sessions.set k s
            sent := t.sent ++ messages.map fun message => (k, message) }
    else none
  | .shutdown => if t.running then some { t with running := false } else none

/-- What was sent to a session. -/
def AudioThread.sentTo (t : AudioThread) (k : ℕ) : List AudioMessage :=
  (t.sent.filter fun sent => sent.1 = k).map Prod.snd

def AudioMessage.data? : AudioMessage → Option DataPacket
  | .data packet => some packet
  | .fec _ _ => none

def AudioThread.dataTo (t : AudioThread) (k : ℕ) : List DataPacket := (t.sentTo k).filterMap AudioMessage.data?

/-! ### What should be sent -/

/-- The parity packets of a block of four. -/
def fecPackets : List DataPacket → DataPacket → List AudioMessage
  | [p₀, p₁, p₂], p =>
    (List.range rtpaFecShards).map fun x =>
      .fec (audioFecPacket (p.rtp.sequenceNumber + BitVec.ofNat 16 (x + 1)) (UInt8.ofNat x)
          (p.rtp.sequenceNumber - 3) p₀.rtp.timestamp)
        (lib.reedSolomonEncode parityMatrix [p₀.payload, p₁.payload, p₂.payload, p.payload] x)
  | _, _ => []

/-- A data packet behind others, and the parity packets of the last four. -/
def audioRound (before : List DataPacket) (p : DataPacket) : List AudioMessage :=
  .data p :: if (p.rtp.sequenceNumber.toNat + 1) % 4 = 0 then fecPackets lib (before.rtake 3) p else []

def audioStreamFrom (before : List DataPacket) : List DataPacket → List AudioMessage
  | [] => []
  | p :: packets => audioRound lib before p ++ audioStreamFrom (before ++ [p]) packets

/-- The data packets of a session, with parity behind every fourth. -/
def audioStream (packets : List DataPacket) : List AudioMessage := audioStreamFrom lib [] packets

/-! ### Blocks of four -/

/-- The packets behind the last whole block. -/
def currentBlock (packets : List DataPacket) : List DataPacket := packets.drop (4 * (packets.length / 4))

lemma length_currentBlock (packets : List DataPacket) : (currentBlock packets).length = packets.length % 4 := by
  rw [currentBlock, List.length_drop]
  omega

lemma currentBlock_append_of_ne {packets : List DataPacket} (h : packets.length % 4 ≠ 3) (p : DataPacket) :
    currentBlock (packets ++ [p]) = currentBlock packets ++ [p] := by
  have hdiv : (packets ++ [p]).length / 4 = packets.length / 4 := by
    rw [List.length_append, List.length_singleton]
    omega
  rw [currentBlock, hdiv, List.drop_append_of_le_length (Nat.mul_div_le _ _), currentBlock]

lemma currentBlock_append_of_eq {packets : List DataPacket} (h : packets.length % 4 = 3) (p : DataPacket) :
    currentBlock (packets ++ [p]) = [] := by
  rw [← List.length_eq_zero_iff, length_currentBlock, List.length_append, List.length_singleton]
  omega

lemma rtake_eq_currentBlock {packets : List DataPacket} (h : packets.length % 4 = 3) :
    packets.rtake 3 = currentBlock packets := by
  rw [List.rtake_eq_reverse_take_reverse, List.take_reverse, List.reverse_reverse, currentBlock]
  congr 1
  omega

lemma of_getElem?_concat {α : Type} {l : List α} {a b : α} {i : ℕ} (h : (l ++ [a])[i]? = some b) :
    l[i]? = some b ∨ i = l.length ∧ b = a := by
  by_cases hi : i < l.length
  · rw [List.getElem?_append_left hi] at h
    exact Or.inl h
  · obtain ⟨hlt, -⟩ := List.getElem?_eq_some_iff.mp h
    rw [List.length_append, List.length_singleton] at hlt
    obtain rfl : i = l.length := by omega
    rw [List.getElem?_concat_length] at h
    exact Or.inr ⟨rfl, (Option.some.inj h).symm⟩

variable {lib ss}

lemma audioStreamFrom_append (before packets : List DataPacket) (p : DataPacket) :
    audioStreamFrom lib before (packets ++ [p]) =
      audioStreamFrom lib before packets ++ audioRound lib (before ++ packets) p := by
  induction packets generalizing before with
  | nil => simp [audioStreamFrom]
  | cons q packets ih => simp [audioStreamFrom, ih]

lemma audioStream_append (packets : List DataPacket) (p : DataPacket) :
    audioStream lib (packets ++ [p]) = audioStream lib packets ++ audioRound lib packets p := by
  rw [audioStream, audioStreamFrom_append, List.nil_append, audioStream]

/-! ### One packet -/

lemma sendAudio_some {s s' : Session} {packet : Str} {message : Message} (hsize : packet.length ≤ 1400)
    (h : sendAudio lib.toLibrary ss s packet = (s', some message)) :
    s'.audioSequenceNumber = s.audioSequenceNumber + 1 ∧ message.wire.bytes.length ≤ maxBlockSize := by
  have hblock : 1400 + 16 ≤ maxBlockSize := by decide
  unfold sendAudio at h
  split_ifs at h
  · dsimp only at h
    split at h
    next cipher hcipher =>
      obtain ⟨rfl, hmessage⟩ := Prod.mk.inj h
      obtain rfl := Option.some.inj hmessage
      have := lib.cbcEncrypt_length hcipher
      exact ⟨rfl, by simp only [Wire.bytes]; omega⟩
    next => cases (Prod.mk.inj h).2
  · obtain ⟨rfl, hmessage⟩ := Prod.mk.inj h
    obtain rfl := Option.some.inj hmessage
    exact ⟨rfl, by simp only [Wire.bytes]; omega⟩

/-- The FEC packets, when no send throws. -/
lemma sendFec_none {s : AudioSession} {sn : BitVec 16} {i : UInt8} {base : BitVec 16} {ts : BitVec 32}
    (hpacket : s.fecPacket = audioFecPacket sn i base ts) (sequenceNumber : BitVec 16) (bytes : ℕ) (xs : List ℕ) :
    (s.sendFec sequenceNumber bytes none xs).2 = xs.map (fun x =>
        .fec (audioFecPacket (sequenceNumber + BitVec.ofNat 16 (x + 1)) (UInt8.ofNat x) base ts)
          (Buffer.read s.shards (shardsP (rtpaDataShards + x)) bytes)) ∧
      (s.sendFec sequenceNumber bytes none xs).1.toSession = s.toSession ∧
      (s.sendFec sequenceNumber bytes none xs).1.shards = s.shards ∧
      ∃ sn i, (s.sendFec sequenceNumber bytes none xs).1.fecPacket = audioFecPacket sn i base ts := by
  induction xs generalizing s sn i with
  | nil => exact ⟨rfl, rfl, rfl, sn, i, hpacket⟩
  | cons x xs ih =>
    let s₁ : AudioSession :=
      { s with fecPacket := audioFecPacket (sequenceNumber + BitVec.ofNat 16 (x + 1)) (UInt8.ofNat x) base ts }
    have hstep : s.sendFec sequenceNumber bytes none (x :: xs) = ((s₁.sendFec sequenceNumber bytes none xs).1,
        .fec s₁.fecPacket (Buffer.read s₁.shards (shardsP (rtpaDataShards + x)) bytes) ::
          (s₁.sendFec sequenceNumber bytes none xs).2) := by
      simp only [AudioSession.sendFec, hpacket]
      rfl
    obtain ⟨hmessages, hsession, hshards, hheader⟩ := ih (rfl : s₁.fecPacket = audioFecPacket _ _ base ts)
    rw [hstep]
    exact ⟨by rw [hmessages, List.map_cons], hsession, hshards, hheader⟩

lemma shardsP_add_le {x n : ℕ} (hx : x < rtpaTotalShards) (hn : n ≤ maxBlockSize) :
    shardsP x + n ≤ rtpaTotalShards * maxBlockSize := by
  have := Nat.mul_le_mul_right maxBlockSize (Nat.succ_le_of_lt hx)
  rw [Nat.succ_mul] at this
  unfold shardsP
  omega

lemma shardsP_disjoint {x y n : ℕ} (hxy : x ≠ y) (hn : n ≤ maxBlockSize) :
    shardsP x + n ≤ shardsP y ∨ shardsP y + n ≤ shardsP x := by
  unfold shardsP
  rcases Nat.lt_or_gt_of_ne hxy with h | h
  · have := Nat.mul_le_mul_right maxBlockSize (Nat.succ_le_of_lt h)
    rw [Nat.succ_mul] at this
    omega
  · have := Nat.mul_le_mul_right maxBlockSize (Nat.succ_le_of_lt h)
    rw [Nat.succ_mul] at this
    omega

lemma read_write_shard {shards block : Str} {x y n : ℕ} (hsize : shards.length = rtpaTotalShards * maxBlockSize)
    (hblock : block.length = n) (hn : n ≤ maxBlockSize) (hx : x < rtpaTotalShards) :
    Buffer.read (Buffer.write shards (shardsP x) block) (shardsP y) n =
      if y = x then block else Buffer.read shards (shardsP y) n := by
  have hroom : shardsP x + block.length ≤ shards.length := by
    rw [hsize, hblock]
    exact shardsP_add_le hx hn
  split_ifs with hyx
  · subst hyx
    rw [← hblock, Buffer.read_write hroom]
  · rw [Buffer.read_write_of_disjoint hroom]
    rw [hblock]
    exact shardsP_disjoint hyx hn

lemma length_write_shard {shards block : Str} {x : ℕ} (hsize : shards.length = rtpaTotalShards * maxBlockSize)
    (hn : block.length ≤ maxBlockSize) (hx : x < rtpaTotalShards) :
    (Buffer.write shards (shardsP x) block).length = rtpaTotalShards * maxBlockSize := by
  rw [Buffer.length_write, hsize]
  rw [hsize]
  exact shardsP_add_le hx hn

variable (lib) in
/-- The parity shards of the data shards. -/
lemma read_encodeParity {s : AudioSession} {n : ℕ} (hsize : s.shards.length = rtpaTotalShards * maxBlockSize)
    (hn : n ≤ maxBlockSize) :
    (s.encodeParity lib n).shards.length = rtpaTotalShards * maxBlockSize ∧ ∀ x < rtpaFecShards,
      Buffer.read (s.encodeParity lib n).shards (shardsP (rtpaDataShards + x)) n =
        lib.reedSolomonEncode parityMatrix (s.dataShards n) x := by
  have hdata : ∀ shard ∈ s.dataShards n, shard.length = n := by
    intro shard hshard
    obtain ⟨x, hx, rfl⟩ := List.mem_map.mp hshard
    have := shardsP_add_le (Nat.lt_trans (List.mem_range.mp hx) (by decide : rtpaDataShards < rtpaTotalShards)) hn
    simp only [Buffer.read, List.length_take, List.length_drop]
    omega
  have hparity : ∀ x, (lib.reedSolomonEncode parityMatrix (s.dataShards n) x).length = n := fun x =>
    lib.reedSolomonEncode_length (by simp [AudioSession.dataShards, rtpaDataShards]) hdata
  have hfirst := length_write_shard hsize ((hparity 0).trans_le hn) (by decide : rtpaDataShards < rtpaTotalShards)
  have hsecond := length_write_shard hfirst ((hparity 1).trans_le hn) (by decide : rtpaDataShards + 1 < rtpaTotalShards)
  refine ⟨hsecond, fun x hx => ?_⟩
  have hread := read_write_shard (y := rtpaDataShards + x) hfirst (hparity 1) hn
    (by decide : rtpaDataShards + 1 < rtpaTotalShards)
  refine hread.trans ?_
  by_cases hone : x = 1
  · rw [if_pos (by rw [hone]), hone]
  · obtain rfl : x = 0 := by
      unfold rtpaFecShards at hx
      omega
    rw [if_neg (by decide), read_write_shard hsize (hparity 0) hn (by decide), if_pos (Nat.add_zero _)]

/-! ### A session between two packets -/

/-- The FEC header is that of the block that begins with the first of these packets. -/
def Heads (fecPacket : AudioFecPacket) (block : List DataPacket) : Prop :=
  ∃ sn i base ts, fecPacket = audioFecPacket sn i base ts ∧
    ∀ p, block.head? = some p → base = p.rtp.sequenceNumber ∧ ts = p.rtp.timestamp

/-- The first shards hold these packets. -/
def Holds (n : ℕ) (shards : Str) (block : List DataPacket) : Prop :=
  ∀ i p, block[i]? = some p → Buffer.read shards (shardsP i) n = p.payload

/-- The state of a session behind its data packets, all of `n` bytes. -/
structure Kept (n : ℕ) (s : AudioSession) (packets : List DataPacket) : Prop where
  sequenceNumber : s.audioSequenceNumber = BitVec.ofNat 16 packets.length
  numbers : ∀ i p, packets[i]? = some p → p.rtp.sequenceNumber = BitVec.ofNat 16 i
  size : s.shards.length = rtpaTotalShards * maxBlockSize
  holds : Holds n s.shards (currentBlock packets)
  heads : Heads s.fecPacket (currentBlock packets)

lemma kept_alloc (n m : ℕ) (address : Address) (config : Config) (launch : LaunchSession) :
    Kept n (allocAudio ss m address config launch) [] where
  sequenceNumber := rfl
  numbers := by simp
  size := List.length_replicate
  holds := by simp [Holds, currentBlock]
  heads := ⟨0, 0, 0, 0, rfl, by simp [currentBlock]⟩

lemma toNat_mod_four {s : AudioSession} {n : ℕ} {packets : List DataPacket} (h : Kept n s packets) :
    s.audioSequenceNumber.toNat % 4 = packets.length % 4 := by
  rw [h.sequenceNumber, BitVec.toNat_ofNat]
  omega

lemma Holds.append {n : ℕ} {shards bytes : Str} {block : List DataPacket} (h : Holds n shards block)
    (hsize : shards.length = rtpaTotalShards * maxBlockSize) (hbytes : bytes.length = n) (hn : n ≤ maxBlockSize)
    (hblock : block.length < rtpaTotalShards) (rtp : RtpPacket) :
    Holds n (Buffer.write shards (shardsP block.length) bytes) (block ++ [⟨rtp, bytes⟩]) := by
  intro i p hp
  rw [read_write_shard hsize hbytes hn hblock]
  rcases of_getElem?_concat hp with hp | ⟨rfl, rfl⟩
  · have hne : i ≠ block.length := (List.getElem?_eq_some_iff.mp hp).1.ne
    rw [if_neg hne, h i p hp]
  · rw [if_pos rfl]

lemma Heads.beginBlock {s : AudioSession} {packets : List DataPacket} {p : DataPacket}
    (h : Heads s.fecPacket (currentBlock packets))
    (hnumber : p.rtp.sequenceNumber.toNat % 4 = packets.length % 4) :
    Heads (s.beginBlock p.rtp.sequenceNumber p.rtp.timestamp).fecPacket (currentBlock packets ++ [p]) := by
  obtain ⟨sn, i, base, ts, hpacket, hhead⟩ := h
  unfold AudioSession.beginBlock
  split_ifs with hfirst
  · have hnil : currentBlock packets = [] := by
      rw [← List.length_eq_zero_iff, length_currentBlock, ← hnumber]
      exact hfirst
    refine ⟨sn, i, p.rtp.sequenceNumber, p.rtp.timestamp, by rw [hpacket]; rfl, fun q hq => ?_⟩
    rw [hnil, List.nil_append, List.head?_cons] at hq
    rw [← Option.some.inj hq]
    exact ⟨rfl, rfl⟩
  · have hne : currentBlock packets ≠ [] := by
      rw [← List.length_pos_iff, length_currentBlock, ← hnumber]
      exact Nat.pos_of_ne_zero hfirst
    refine ⟨sn, i, base, ts, hpacket, fun q hq => hhead q ?_⟩
    rwa [List.head?_append_of_ne_nil _ hne] at hq

lemma dataShards_of_holds {s : AudioSession} {n : ℕ} {p₀ p₁ p₂ p : DataPacket}
    (h : Holds n s.shards [p₀, p₁, p₂, p]) :
    s.dataShards n = [p₀.payload, p₁.payload, p₂.payload, p.payload] := by
  rw [← h 0 p₀ rfl, ← h 1 p₁ rfl, ← h 2 p₂ rfl, ← h 3 p rfl]
  rfl

lemma first_of_block {packets : List DataPacket} {p p₀ p₁ p₂ : DataPacket}
    (hblock : currentBlock packets = [p₀, p₁, p₂])
    (hnumbers : ∀ i q, (packets ++ [p])[i]? = some q → q.rtp.sequenceNumber = BitVec.ofNat 16 i) :
    p₀.rtp.sequenceNumber = p.rtp.sequenceNumber - 3 := by
  have hlength := congrArg List.length hblock
  rw [length_currentBlock, List.length_cons, List.length_cons, List.length_singleton] at hlength
  have hfirst : (packets ++ [p])[4 * (packets.length / 4)]? = some p₀ := by
    have hhead := congrArg List.head? hblock
    rw [currentBlock, List.head?_drop, List.head?_cons] at hhead
    rw [List.getElem?_append_left (by omega), hhead]
  have hlast : packets.length = 4 * (packets.length / 4) + 3 := by omega
  have hnumber := hnumbers packets.length p List.getElem?_concat_length
  rw [hlast, BitVec.ofNat_add] at hnumber
  rw [hnumbers _ p₀ hfirst, hnumber]
  exact (BitVec.add_sub_cancel _ _).symm

lemma numbers_append {packets : List DataPacket} {p : DataPacket}
    (h : ∀ i q, packets[i]? = some q → q.rtp.sequenceNumber = BitVec.ofNat 16 i)
    (hp : p.rtp.sequenceNumber = BitVec.ofNat 16 packets.length) :
    ∀ i q, (packets ++ [p])[i]? = some q → q.rtp.sequenceNumber = BitVec.ofNat 16 i := by
  intro i q hq
  rcases of_getElem?_concat hq with hq | ⟨rfl, rfl⟩
  · exact h i q hq
  · exact hp

@[simp] lemma beginBlock_toSession (s : AudioSession) (sequenceNumber : BitVec 16) (timestamp : BitVec 32) :
    (s.beginBlock sequenceNumber timestamp).toSession = s.toSession := by
  unfold AudioSession.beginBlock
  split_ifs <;> rfl

@[simp] lemma beginBlock_shards (s : AudioSession) (sequenceNumber : BitVec 16) (timestamp : BitVec 32) :
    (s.beginBlock sequenceNumber timestamp).shards = s.shards := by
  unfold AudioSession.beginBlock
  split_ifs <;> rfl

/-- The state behind the packet `p`, before its parity packets. -/
structure Filled (n : ℕ) (s : AudioSession) (packets : List DataPacket) (p : DataPacket) : Prop where
  sequenceNumber : s.audioSequenceNumber = BitVec.ofNat 16 (packets ++ [p]).length
  numbers : ∀ i q, (packets ++ [p])[i]? = some q → q.rtp.sequenceNumber = BitVec.ofNat 16 i
  size : s.shards.length = rtpaTotalShards * maxBlockSize
  holds : Holds n s.shards (currentBlock packets ++ [p])
  heads : Heads s.fecPacket (currentBlock packets ++ [p])

lemma Kept.store {n : ℕ} {s : AudioSession} {packets : List DataPacket} (hk : Kept n s packets) (hn : n ≤ maxBlockSize)
    {session : Session} (hsession : session.audioSequenceNumber = s.audioSequenceNumber + 1) {p : DataPacket}
    (hrtp : p.rtp.sequenceNumber = s.audioSequenceNumber) (hpayload : p.payload.length = n) :
    Filled n ((s.store session p.payload).beginBlock p.rtp.sequenceNumber p.rtp.timestamp) packets p := by
  have hslot : s.audioSequenceNumber.toNat % rtpaDataShards = (currentBlock packets).length := by
    rw [length_currentBlock]
    exact toNat_mod_four hk
  have hlt : (currentBlock packets).length < rtpaTotalShards := by
    rw [length_currentBlock]
    exact (Nat.mod_lt _ (by decide)).trans (by decide : 4 < rtpaTotalShards)
  refine ⟨?_, numbers_append hk.numbers (hrtp.trans hk.sequenceNumber), ?_, ?_, ?_⟩
  · rw [beginBlock_toSession, List.length_append, List.length_singleton, BitVec.ofNat_add, ← hk.sequenceNumber]
    exact hsession
  · rw [beginBlock_shards]
    exact length_write_shard hk.size (hpayload.trans_le hn) (hslot ▸ hlt)
  · rw [beginBlock_shards]
    simp only [AudioSession.store]
    rw [hslot]
    exact hk.holds.append hk.size hpayload hn hlt p.rtp
  · exact Heads.beginBlock hk.heads (by rw [hrtp]; exact toNat_mod_four hk)

lemma Filled.kept {n : ℕ} {s : AudioSession} {packets : List DataPacket} {p : DataPacket} (h : Filled n s packets p)
    (hlast : packets.length % 4 ≠ 3) : Kept n s (packets ++ [p]) := by
  have hblock := currentBlock_append_of_ne hlast p
  exact ⟨h.sequenceNumber, h.numbers, h.size, hblock ▸ h.holds, hblock ▸ h.heads⟩

variable (lib) in
lemma Filled.parity {n : ℕ} {s : AudioSession} {packets : List DataPacket} {p : DataPacket} (h : Filled n s packets p)
    (hn : n ≤ maxBlockSize) (hlast : packets.length % 4 = 3) :
    ((s.encodeParity lib n).sendFec p.rtp.sequenceNumber n none (List.range rtpaFecShards)).2 =
      fecPackets lib (packets.rtake 3) p := by
  obtain ⟨p₀, p₁, p₂, hblock⟩ := List.length_eq_three.mp ((length_currentBlock packets).trans hlast)
  obtain ⟨sn, i, base, ts, hpacket, hhead⟩ := h.heads
  have hholds := h.holds
  rw [hblock] at hholds hhead
  obtain ⟨hbase, hts⟩ := hhead p₀ rfl
  obtain ⟨-, hparity⟩ := read_encodeParity lib h.size hn
  have hencoded : (s.encodeParity lib n).fecPacket = audioFecPacket sn i base ts := hpacket
  rw [(sendFec_none hencoded p.rtp.sequenceNumber n (List.range rtpaFecShards)).1, rtake_eq_currentBlock hlast, hblock,
    fecPackets]
  refine List.map_congr_left fun x hx => ?_
  rw [hparity x (List.mem_range.mp hx), dataShards_of_holds hholds, hbase, hts, first_of_block hblock h.numbers]

variable (lib) in
/-- Behind them the next block begins. -/
lemma Filled.kept_sendFec {n : ℕ} {s : AudioSession} {packets : List DataPacket} {p : DataPacket}
    (h : Filled n s packets p) (hn : n ≤ maxBlockSize) (hlast : packets.length % 4 = 3) :
    Kept n ((s.encodeParity lib n).sendFec p.rtp.sequenceNumber n none (List.range rtpaFecShards)).1
      (packets ++ [p]) := by
  obtain ⟨sn, i, base, ts, hpacket, -⟩ := h.heads
  have hencoded : (s.encodeParity lib n).fecPacket = audioFecPacket sn i base ts := hpacket
  obtain ⟨-, hsession, hshards, sn', i', hpacket'⟩ :=
    sendFec_none hencoded p.rtp.sequenceNumber n (List.range rtpaFecShards)
  have hnil := currentBlock_append_of_eq hlast p
  refine ⟨?_, h.numbers, ?_, ?_, ?_⟩
  · rw [hsession]
    exact h.sequenceNumber
  · rw [hshards]
    exact (read_encodeParity lib h.size hn).1
  · rw [hnil]
    exact fun _ _ hq => nomatch hq
  · rw [hnil]
    exact ⟨sn', i', base, ts, hpacket', fun _ hq => nomatch hq⟩

/-- One packet, of as many bytes as those before it. -/
lemma Kept.broadcast {n : ℕ} {s s' : AudioSession} {packets : List DataPacket} {packet : AudioBuffer}
    {messages : List AudioMessage} (hk : Kept n s packets)
    (h : s.broadcast lib ss packet none = some (s', messages))
    (hn : ∀ p, .data p ∈ messages → p.payload.length = n) :
    ∃ p, messages = audioRound lib packets p ∧ Kept n s' (packets ++ [p]) := by
  unfold AudioSession.broadcast at h
  dsimp only at h
  split at h
  · cases h
  next session message hsend =>
    obtain ⟨hnext, hsize⟩ := sendAudio_some packet.size_le hsend
    rw [if_neg (by simp)] at h
    generalize message.wire.bytes = bytes at h hsize
    have hslot : s.audioSequenceNumber.toNat % rtpaDataShards < rtpaTotalShards :=
      (Nat.mod_lt _ (by decide)).trans (by decide : 4 < rtpaTotalShards)
    have hpayload : Buffer.read (s.store session bytes).shards
        (shardsP (s.audioSequenceNumber.toNat % rtpaDataShards)) bytes.length = bytes :=
      (read_write_shard hk.size rfl hsize hslot).trans (if_pos rfl)
    rw [hpayload] at h
    obtain ⟨p, hp⟩ : ∃ p : DataPacket, p =
        { rtp :=
            { header := 0x80
              packetType := 97
              sequenceNumber := s.audioSequenceNumber
              timestamp := s.audioTimestamp
              ssrc := 0 }
          payload := bytes } := ⟨_, rfl⟩
    have hrtp : p.rtp.sequenceNumber = s.audioSequenceNumber := by rw [hp]
    have hts : p.rtp.timestamp = s.audioTimestamp := by rw [hp]
    have hdata : p.payload = bytes := by rw [hp]
    rw [← hp, ← hrtp, ← hts, ← hdata] at h
    have hmem : .data p ∈ messages := by
      split_ifs at h <;> cases h <;> exact List.mem_cons_self
    have hbytes := hn p hmem
    have hn' : n ≤ maxBlockSize := by rwa [← hbytes, hdata]
    have hfilled := hk.store hn' hnext hrtp hbytes
    have hmod := toNat_mod_four hk
    rw [hbytes] at h
    refine ⟨p, ?_⟩
    rw [audioRound]
    split_ifs at h with hend
    · have hlast : packets.length % 4 = 3 := by
        rw [hrtp, rtpaDataShards] at hend
        omega
      obtain ⟨rfl, rfl⟩ := Prod.mk.inj (Option.some.inj h)
      have hparity := hfilled.parity lib hn' hlast
      exact ⟨congrArg _ (hparity.trans (if_pos hend).symm), hfilled.kept_sendFec lib hn' hlast⟩
    · have hlast : packets.length % 4 ≠ 3 := by
        rw [hrtp, rtpaDataShards] at hend
        omega
      obtain ⟨rfl, rfl⟩ := Prod.mk.inj (Option.some.inj h)
      exact ⟨congrArg _ (if_neg hend).symm, hfilled.kept hlast⟩

/-! ### The thread -/

variable (lib ss) in
/-- The transition relation. -/
abbrev AudioStep : AudioThread → AudioOp → AudioThread → Prop := ofPartial fun t op => t.step lib ss op

/-- No send to the session throws. -/
def AudioOp.Sends (k : ℕ) : AudioOp → Prop
  | .packet j _ throwsAt => j = k → throwsAt = none
  | _ => True

instance (k : ℕ) : DecidablePred (AudioOp.Sends k) := by
  intro op
  cases op <;> unfold AudioOp.Sends <;> infer_instance

lemma data?_fecPackets (before : List DataPacket) (p : DataPacket) :
    (fecPackets lib before p).filterMap AudioMessage.data? = [] := by
  unfold fecPackets
  split <;> simp [AudioMessage.data?]

lemma data?_audioRound (before : List DataPacket) (p : DataPacket) :
    (audioRound lib before p).filterMap AudioMessage.data? = [p] := by
  unfold audioRound
  split_ifs <;> simp [AudioMessage.data?, data?_fecPackets]

lemma sentTo_append {t u : AudioThread} {j : ℕ} {messages : List AudioMessage}
    (hu : u.sent = t.sent ++ messages.map fun message => (j, message)) (k : ℕ) :
    u.sentTo k = t.sentTo k ++ if j = k then messages else [] := by
  unfold AudioThread.sentTo
  rw [hu, List.filter_append, List.map_append]
  congr 1
  by_cases hj : j = k <;> simp [hj, List.filter_map, Function.comp_def]

/-- What holds of the session `k` as long as its packets have `n` bytes. -/
structure AlignedAt (lib : AudioLibrary) (k n : ℕ) (t : AudioThread) : Prop where
  fresh : t.sessions[k]? = none → t.sentTo k = []
  kept : ∀ s, t.sessions[k]? = some s → Kept n s (t.dataTo k) ∧ t.sentTo k = audioStream lib (t.dataTo k)

lemma AlignedAt.congr {k n : ℕ} {t u : AudioThread} (h : AlignedAt lib k n t)
    (hsessions : u.sessions[k]? = t.sessions[k]?) (hsent : u.sentTo k = t.sentTo k) : AlignedAt lib k n u := by
  have hdata : u.dataTo k = t.dataTo k := by rw [AudioThread.dataTo, hsent, AudioThread.dataTo]
  refine ⟨fun hnone => hsent.trans (h.fresh (hsessions.symm.trans hnone)), fun s hs => ?_⟩
  rw [hsent, hdata]
  exact h.kept s (hsessions.symm.trans hs)

lemma AlignedAt.alloc {k n : ℕ} {t : AudioThread} (h : AlignedAt lib k n t) (m : ℕ) (address : Address)
    (config : Config) (launch : LaunchSession) :
    AlignedAt lib k n { t with sessions := t.sessions ++ [allocAudio ss m address config launch] } := by
  refine ⟨fun hnone => h.fresh ?_, fun s hs => ?_⟩
  · have := List.getElem?_eq_none_iff.mp hnone
    rw [List.length_append] at this
    exact List.getElem?_eq_none_iff.mpr (by omega)
  · rcases of_getElem?_concat hs with hs | ⟨rfl, rfl⟩
    · exact h.kept s hs
    · have hsent := h.fresh (List.getElem?_eq_none_iff.mpr (le_refl _))
      have hdata : t.dataTo t.sessions.length = [] := by rw [AudioThread.dataTo, hsent, List.filterMap_nil]
      change Kept n _ (t.dataTo t.sessions.length) ∧
        t.sentTo t.sessions.length = audioStream lib (t.dataTo t.sessions.length)
      rw [hdata, hsent]
      exact ⟨kept_alloc n m address config launch, rfl⟩

/-- One more packet of the session. -/
lemma AlignedAt.packet {k n : ℕ} {t u : AudioThread} {s s' : AudioSession} {packet : AudioBuffer}
    {messages : List AudioMessage} (h : AlignedAt lib k n t) (hs : t.sessions[k]? = some s)
    (hbroadcast : s.broadcast lib ss packet none = some (s', messages)) (hget : u.sessions[k]? = some s')
    (hsent : u.sentTo k = t.sentTo k ++ messages) (hsize : ∀ p ∈ u.dataTo k, p.payload.length = n) :
    AlignedAt lib k n u := by
  have hdata : u.dataTo k = t.dataTo k ++ messages.filterMap AudioMessage.data? := by
    rw [AudioThread.dataTo, hsent, List.filterMap_append, AudioThread.dataTo]
  obtain ⟨hk, hstream⟩ := h.kept s hs
  have hn : ∀ p, .data p ∈ messages → p.payload.length = n := by
    intro p hp
    refine hsize p ?_
    rw [hdata]
    exact List.mem_append_right _ (List.mem_filterMap.mpr ⟨.data p, hp, rfl⟩)
  obtain ⟨p, rfl, hk'⟩ := hk.broadcast hbroadcast hn
  rw [data?_audioRound] at hdata
  refine ⟨fun hnone => absurd hget (by simp [hnone]), fun s'' hs'' => ?_⟩
  obtain rfl := Option.some.inj (hget.symm.trans hs'')
  rw [hsent, hdata, hstream, audioStream_append]
  exact ⟨hk', rfl⟩

lemma AlignedAt.step {k n : ℕ} {t u : AudioThread} {op : AudioOp}
    (h : (∀ p ∈ t.dataTo k, p.payload.length = n) → AlignedAt lib k n t) (hsends : op.Sends k)
    (hstep : AudioStep lib ss t op u) : (∀ p ∈ u.dataTo k, p.payload.length = n) → AlignedAt lib k n u := by
  intro hsize
  cases op with
  | shutdown =>
    obtain ⟨-, rfl⟩ := of_ite_some hstep
    exact (h hsize).congr rfl rfl
  | alloc m address config launch =>
    obtain rfl := Option.some.inj hstep
    exact (h hsize).alloc m address config launch
  | packet j packet throwsAt =>
    obtain ⟨-, hmap⟩ := Option.ite_none_right_eq_some.mp hstep
    obtain ⟨s, hs, hu⟩ := Option.map_eq_some_iff.mp hmap
    split at hu
    · obtain rfl := hu
      exact (h hsize).congr rfl rfl
    next s' messages hbroadcast =>
      have hsent : u.sentTo k = t.sentTo k ++ if j = k then messages else [] := sentTo_append (by rw [← hu]) k
      have hsessions : u.sessions = t.sessions.set j s' := by rw [← hu]
      have ht := h fun p hp => hsize p (by
        rw [AudioThread.dataTo, hsent, List.filterMap_append]
        exact List.mem_append_left _ hp)
      by_cases hj : j = k
      · subst hj
        obtain rfl : throwsAt = none := hsends rfl
        rw [if_pos rfl] at hsent
        have hget : u.sessions[j]? = some s' := by
          rw [hsessions, List.getElem?_set_self (List.getElem?_eq_some_iff.mp hs).1]
        exact ht.packet hs hbroadcast hget hsent hsize
      · rw [if_neg hj, List.append_nil] at hsent
        exact ht.congr (by rw [hsessions, List.getElem?_set_ne hj]) hsent

/-- **FEC blocks are aligned.**  What a session is sent, by a thread that sends for others as well, are its data
packets, numbered from 0 modulo `2 ^ 16`, with the parity of a whole block behind every fourth and nowhere else. -/
theorem audioStream_of_run {k n : ℕ} {ops : List AudioOp} {t : AudioThread}
    (hrun : Run (Guarded (AudioStep lib ss) fun _ op => op.Sends k) {} ops t)
    (hsize : ∀ p ∈ t.dataTo k, p.payload.length = n) :
    (∀ i p, (t.dataTo k)[i]? = some p → p.rtp.sequenceNumber = BitVec.ofNat 16 i) ∧
      t.sentTo k = audioStream lib (t.dataTo k) := by
  have hinv : (∀ p ∈ t.dataTo k, p.payload.length = n) → AlignedAt lib k n t :=
    hrun.invariant_where (I := fun t => (∀ p ∈ t.dataTo k, p.payload.length = n) → AlignedAt lib k n t)
      (fun _ _ _ hI hsends hstep => AlignedAt.step hI hsends hstep)
      (fun _ => ⟨fun _ => rfl, fun _ hs => nomatch hs⟩)
  have haligned := hinv hsize
  cases hs : t.sessions[k]? with
  | none =>
    have hsent := haligned.fresh hs
    rw [AudioThread.dataTo, hsent, List.filterMap_nil]
    exact ⟨fun _ _ hp => (nomatch hp), rfl⟩
  | some s =>
    obtain ⟨hk, hstream⟩ := haligned.kept s hs
    exact ⟨hk.numbers, hstream⟩

/-! ### A run -/

/-- Doubling in the field of the Reed-Solomon code. -/
def gfDouble (a : UInt8) : UInt8 := if a < 128 then a <<< 1 else a <<< 1 ^^^ 0x1d

/-- Multiplication in the field, from the bits of a factor, the highest first. -/
def gfMul (a b : UInt8) : UInt8 :=
  [7, 6, 5, 4, 3, 2, 1, 0].foldl
    (fun product bit => if b.toNat.testBit bit then gfDouble product ^^^ a else gfDouble product) 0

/-- A row of the matrix times the data shards. -/
def gfRow (matrix : Str) (shards : List Str) (x : ℕ) : Str :=
  (List.range (shards.headD []).length).map fun i =>
    (shards.zip (matrix.drop (x * shards.length))).foldl (fun sum p => sum ^^^ gfMul p.2 (p.1.getD i 0)) 0

def demoAudioLibrary : AudioLibrary where
  toLibrary := demoLibrary
  reedSolomonEncode := gfRow
  cbcEncrypt_length h := by
    rw [← Option.some.inj h, List.length_cons]
    omega
  reedSolomonEncode_length := by
    intro matrix shards n x hne hlength
    obtain ⟨shard, shards, rfl⟩ := List.exists_cons_of_ne_nil hne
    rw [gfRow, List.length_map, List.length_range]
    exact hlength shard List.mem_cons_self

def demoPacket (b : UInt8) : AudioBuffer := ⟨[b, b], by simp⟩

theorem audioStream_two_sessions : ∃ t : AudioThread,
    (t.sentTo 0).length = 6 ∧
    (∀ i p, (t.dataTo 0)[i]? = some p → p.rtp.sequenceNumber = BitVec.ofNat 16 i) ∧
      t.sentTo 0 = audioStream demoAudioLibrary (t.dataTo 0) := by
  obtain ⟨t, hrun, hlength, hsize⟩ := exists_run_execWhere_and
    (f := fun t op => AudioThread.step demoAudioLibrary (demoEnv .mandatory).ss t op)
    (G := fun _ op => AudioOp.Sends 0 op) (s := {})
    (l := [.alloc 0 (.v4 0x08080808) carelessConfig ⟨[1], [2], {}, true, 0⟩,
      .alloc 1 (.v4 0x08080808) carelessConfig ⟨[1], [2], {}, true, 0⟩,
      .packet 0 (demoPacket 1) none, .packet 1 (demoPacket 9) none, .packet 0 (demoPacket 2) none,
      .packet 0 (demoPacket 3) none, .packet 1 (demoPacket 8) (some 0), .packet 0 (demoPacket 4) none])
    (P := fun t => (t.sentTo 0).length = 6 ∧ ∀ p ∈ t.dataTo 0, p.payload.length = 2) (by decide +kernel)
  exact ⟨t, hlength, audioStream_of_run hrun hsize⟩

end MidnightSun.Stream
