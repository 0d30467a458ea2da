import Mathlib.Data.List.Forall2
import MidnightSun.Stream.Reassembly

/-!
# The numbers of video packets (src/stream.cpp, `videoBroadcastThread`)

The headers of the data shards are written before FEC and those of all shards after it.  Over the frames of a session
the shards, data and parity, are numbered without a gap.  A packet is described before its encryption.
-/

namespace MidnightSun.Stream

open Lib Util

/-! ### Packets -/

/-- `video_packet_raw_t` and the bytes behind it; a header of zero bytes has zero fields. -/
structure RawPacket where
  /-- `rtp.header` -/
  rtpHeader : UInt8 := 0
  sequenceNumber : BitVec 16 := 0
  timestamp : BitVec 32 := 0
  streamPacketIndex : BitVec 32 := 0
  frameIndex : BitVec 32 := 0
  flags : BitVec 8 := 0
  multiFecFlags : BitVec 8 := 0
  multiFecBlocks : BitVec 8 := 0
  fecInfo : BitVec 32 := 0
  payload : Str

/-- The flags of the client protocol library: three different bits of a packet, and one of the RTP header. -/
structure PacketFlags where
  containsPicData : BitVec 8
  sof : BitVec 8
  eof : BitVec 8
  extension : UInt8
  sof_ne : sof ≠ 0
  eof_ne : eof ≠ 0
  sof_eof : sof &&& eof = 0
  picData_sof : containsPicData &&& sof = 0
  picData_eof : containsPicData &&& eof = 0

/-- The Reed-Solomon library: from data shards as many parity shards as it is told. -/
structure ReedSolomon where
  encode : List RawPacket → ℕ → List RawPacket
  length_encode : ∀ data parity, (encode data parity).length = parity

/-- What does not change from frame to frame of a session. -/
structure VideoStream where
  flags : PacketFlags
  reedSolomon : ReedSolomon
  packetsize : ℤ
  fecPercentage : ℤ
  minRequiredFecPackets : ℤ

/-! ### A block -/

/-- `(blockIndex << 4) | ((fec_blocks_needed - 1) << 6)`. -/
def multiFecBlocks (blockIndex fecBlocksNeeded : ℕ) : BitVec 8 :=
  BitVec.ofNat 8 (blockIndex <<< 4 ||| (fecBlocksNeeded - 1) <<< 6)

/-- What the client reads: the block index and the number of blocks. -/
def readMultiFecBlocks (b : BitVec 8) : ℕ × ℕ := (b.toNat / 2 ^ 4 % 4, b.toNat / 2 ^ 6 + 1)

section Block

variable (cfg : VideoStream) (packet : Packet) (lowseq : BitVec 32) (blockIndex fecBlocksNeeded : ℕ)

/-- The loop over the data packets of a block, before FEC. -/
def writeDataHeaders (packets : List RawPacket) : List RawPacket :=
  packets.mapIdx fun x p =>
    { p with
      frameIndex := BitVec.ofInt 32 packet.frameIndex
      streamPacketIndex := (lowseq + BitVec.ofNat 32 x) <<< 8
      multiFecFlags := 0x10
      multiFecBlocks := multiFecBlocks blockIndex fecBlocksNeeded
      flags := cfg.flags.containsPicData ||| (if x = 0 then cfg.flags.sof else 0) |||
        (if x = packets.length - 1 then cfg.flags.eof else 0) }

/-- The body of the loop over the shards of a block, after FEC. -/
def writeShardHeader (fec : Fec RawPacket) (x : ℕ) (p : RawPacket) : RawPacket :=
  { p with
    fecInfo := fecInfo x fec.dataShards fec.percentage
    rtpHeader := 0x80 ||| cfg.flags.extension
    sequenceNumber := (lowseq + BitVec.ofNat 32 x).setWidth 16
    timestamp := packet.rtpTimestamp
    multiFecBlocks := multiFecBlocks blockIndex fecBlocksNeeded
    frameIndex := BitVec.ofInt 32 packet.frameIndex }

def writeShardHeaders (fec : Fec RawPacket) : Fec RawPacket :=
  { fec with shards := fec.shards.mapIdx (writeShardHeader cfg packet lowseq blockIndex fecBlocksNeeded fec) }

/-- The body of the loop over FEC blocks. -/
def sendBlock (frame : FecFrame) (block : Str) : Option (Fec RawPacket) := do
  let packets := (dataShards block frame.blocksize).map fun s => { payload := s.drop videoPacketRawSize : RawPacket }
  let packets := writeDataHeaders cfg packet lowseq blockIndex fecBlocksNeeded packets
  let fecpercentage ← toSize frame.fecPercentage
  let minparityshards ← toSize cfg.minRequiredFecPackets
  let fec ← encode cfg.reedSolomon.encode packets fecpercentage minparityshards
  some (writeShardHeaders cfg packet lowseq blockIndex fecBlocksNeeded fec)

end Block

/-! ### Frames -/

/-- The loop over FEC blocks: the shards of each, and `lowseq` behind them. -/
def sendBlocks (cfg : VideoStream) (packet : Packet) (frame : FecFrame) (fecBlocksNeeded : ℕ) (lowseq : BitVec 32)
    (blockIndex : ℕ) : List Str → Option (List (Fec RawPacket) × BitVec 32)
  | [] => some ([], lowseq)
  | block :: blocks => do
    let fec ← sendBlock cfg packet lowseq blockIndex fecBlocksNeeded frame block
    let (fecs, lowseq) ← sendBlocks cfg packet frame fecBlocksNeeded (lowseq + BitVec.ofNat 32 fec.nrShards)
      (blockIndex + 1) blocks
    some (fec :: fecs, lowseq)

/-- The iteration of `videoBroadcastThread` for a packet of a session, when no send throws. -/
def sendFrame (cfg : VideoStream) (lowseq : BitVec 32) (packet : Packet) :
    Option (List (Fec RawPacket) × BitVec 32) := do
  let frame ← packetize cfg.packetsize cfg.fecPercentage packet
  sendBlocks cfg packet frame frame.blocks.length lowseq 0 frame.blocks

/-- The frames of a session one after the other. -/
def sendFrames (cfg : VideoStream) (lowseq : BitVec 32) :
    List Packet → Option (List (List (Fec RawPacket)) × BitVec 32)
  | [] => some ([], lowseq)
  | packet :: packets => do
    let (blocks, lowseq) ← sendFrame cfg lowseq packet
    let (frames, lowseq) ← sendFrames cfg lowseq packets
    some (blocks :: frames, lowseq)

/-! ### Numbering -/

/-- The shards carry consecutive sequence numbers, the first of them `start`. -/
def Consecutive (start : BitVec 32) (shards : List RawPacket) : Prop :=
  ∀ x (hx : x < shards.length), shards[x].sequenceNumber = (start + BitVec.ofNat 32 x).setWidth 16

lemma Consecutive.nil (start : BitVec 32) : Consecutive start [] := by
  intro x hx
  cases hx

lemma Consecutive.append {start : BitVec 32} {a b : List RawPacket} (ha : Consecutive start a)
    (hb : Consecutive (start + BitVec.ofNat 32 a.length) b) : Consecutive start (a ++ b) := by
  intro x hx
  rw [List.length_append] at hx
  rw [List.getElem_append]
  split_ifs with hlt
  · exact ha x hlt
  · rw [hb (x - a.length) (by omega), BitVec.add_assoc, BitVec.ofNat_add_ofNat, Nat.add_sub_cancel' (by omega)]

/-- The shards of a block with the running number `start`: each carries its running number and tells its place, and
the first and the last data packet are marked. -/
structure Fec.Numbered (flags : PacketFlags) (fec : Fec RawPacket) (start : BitVec 32) (blockIndex blocks : ℕ) :
    Prop where
  length_shards : fec.shards.length = fec.nrShards
  dataShards_le : fec.dataShards ≤ fec.nrShards
  sequenceNumber : Consecutive start fec.shards
  fecInfo : ∀ x (hx : x < fec.shards.length),
    readFecInfo fec.shards[x].fecInfo = (x, fec.dataShards, fec.percentage)
  multiFecBlocks : ∀ x (hx : x < fec.shards.length),
    readMultiFecBlocks fec.shards[x].multiFecBlocks = (blockIndex, blocks)
  streamPacketIndex : ∀ x (hx : x < fec.shards.length), x < fec.dataShards →
    fec.shards[x].streamPacketIndex = (start + BitVec.ofNat 32 x) <<< 8
  sof : ∀ x (hx : x < fec.shards.length), x < fec.dataShards → (fec.shards[x].flags &&& flags.sof ≠ 0 ↔ x = 0)
  eof : ∀ x (hx : x < fec.shards.length), x < fec.dataShards →
    (fec.shards[x].flags &&& flags.eof ≠ 0 ↔ x = fec.dataShards - 1)

/-- The blocks of a frame from a block index on. -/
def BlocksNumbered (flags : PacketFlags) (blocks : ℕ) (start : BitVec 32) (blockIndex : ℕ) :
    List (Fec RawPacket) → Prop
  | [] => True
  | fec :: fecs => fec.Numbered flags start blockIndex blocks ∧
      BlocksNumbered flags blocks (start + BitVec.ofNat 32 fec.shards.length) (blockIndex + 1) fecs

/-- The shards of blocks, in the order they are sent. -/
def sentShards (fecs : List (Fec RawPacket)) : List RawPacket := fecs.flatMap Fec.shards

/-- The frames of a session. -/
def FramesNumbered (flags : PacketFlags) (start : BitVec 32) : List (List (Fec RawPacket)) → Prop
  | [] => True
  | fecs :: frames => BlocksNumbered flags fecs.length start 0 fecs ∧
      FramesNumbered flags (start + BitVec.ofNat 32 (sentShards fecs).length) frames

/-- The packet as FEC sees it: the fields that are written afterwards are still zero. -/
def RawPacket.beforeFec (p : RawPacket) : RawPacket :=
  { p with rtpHeader := 0, sequenceNumber := 0, timestamp := 0, fecInfo := 0 }

/-- What is sent of a block of a frame: its data packets with their payloads, and behind them the parity packets that
the library makes of these. -/
structure Fec.Carries (cfg : VideoStream) (frame : FecFrame) (block : Str) (fec : Fec RawPacket) : Prop where
  dataShards : fec.dataShards = sliceCount frame.blocksize block.length
  percentage : (fec.percentage : ℤ) = frame.fecPercentage
  nrShards : fec.nrShards = fec.dataShards + parityShards fec.dataShards fec.percentage
  data : (fec.shards.take fec.dataShards).map RawPacket.payload =
    (Stream.dataShards block frame.blocksize).map (List.drop videoPacketRawSize)
  parity : (fec.shards.drop fec.dataShards).map RawPacket.payload =
    (cfg.reedSolomon.encode ((fec.shards.take fec.dataShards).map RawPacket.beforeFec)
      (parityShards fec.dataShards fec.percentage)).map RawPacket.payload

/-- The blocks that are sent for a packet are those of its frame, one by one. -/
def SentAs (cfg : VideoStream) (packet : Packet) (fecs : List (Fec RawPacket)) : Prop :=
  ∃ frame, packetize cfg.packetsize cfg.fecPercentage packet = some frame ∧
    List.Forall₂ (Fec.Carries cfg frame) frame.blocks fecs

/-! ### One block -/

theorem readMultiFecBlocks_multiFecBlocks {i k : ℕ} (hi : i < k) (hk : k ≤ 4) :
    readMultiFecBlocks (multiFecBlocks i k) = (i, k) := by
  obtain ⟨k, rfl⟩ : ∃ k', k = k' + 1 := ⟨k - 1, by omega⟩
  have hall : ∀ k < 4, ∀ i < k + 1, readMultiFecBlocks (multiFecBlocks i (k + 1)) = (i, k + 1) := by decide
  exact hall k (by omega) i hi

lemma flags_iff (flags : PacketFlags) (first last : Prop) [Decidable first] [Decidable last] :
    ((flags.containsPicData ||| (if first then flags.sof else 0) ||| (if last then flags.eof else 0)) &&&
      flags.sof ≠ 0 ↔
      first) ∧
    ((flags.containsPicData ||| (if first then flags.sof else 0) ||| (if last then flags.eof else 0)) &&&
      flags.eof ≠ 0 ↔
      last) := by
  have hsof : ¬flags.sof = 0#8 := flags.sof_ne
  have heof : ¬flags.eof = 0#8 := flags.eof_ne
  have hcomm : flags.eof &&& flags.sof = 0 := by
    rw [BitVec.and_comm, flags.sof_eof]
  rw [BitVec.and_or_distrib_right, BitVec.and_or_distrib_right, BitVec.and_or_distrib_right,
    BitVec.and_or_distrib_right, flags.picData_sof, flags.picData_eof]
  by_cases hfirst : first <;> by_cases hlast : last <;> simp [hfirst, hlast, hcomm, flags.sof_eof, hsof, heof]

section Block

variable {cfg : VideoStream} {packet : Packet} {frame : FecFrame}

lemma writeDataHeaders_spec (lowseq : BitVec 32) (i k : ℕ) (packets : List RawPacket) {x : ℕ}
    (hx : x < (writeDataHeaders cfg packet lowseq i k packets).length) :
    (writeDataHeaders cfg packet lowseq i k packets)[x].streamPacketIndex = (lowseq + BitVec.ofNat 32 x) <<< 8 ∧
      ((writeDataHeaders cfg packet lowseq i k packets)[x].flags &&& cfg.flags.sof ≠ 0 ↔ x = 0) ∧
      ((writeDataHeaders cfg packet lowseq i k packets)[x].flags &&& cfg.flags.eof ≠ 0 ↔ x = packets.length - 1) := by
  simp only [writeDataHeaders, List.getElem_mapIdx, true_and]
  exact flags_iff cfg.flags (x = 0) (x = packets.length - 1)

lemma map_payload_mapIdx {f : ℕ → RawPacket → RawPacket} (h : ∀ x p, (f x p).payload = p.payload)
    (packets : List RawPacket) : (packets.mapIdx f).map RawPacket.payload = packets.map RawPacket.payload := by
  apply List.ext_getElem
  · simp
  · intro x h₁ h₂
    simp [h]

/-- The headers that a block's shards get after FEC leave the payloads alone, and FEC has seen all other headers. -/
lemma writeShardHeaders_carries {r : Fec RawPacket} {lowseq : BitVec 32} {i k : ℕ} {block : Str}
    {bodies packets parity : List RawPacket}
    (hbodies : (dataShards block frame.blocksize).map (fun s => { payload := s.drop videoPacketRawSize }) = bodies)
    (hpackets : writeDataHeaders cfg packet lowseq i k bodies = packets) (hblocksize : 0 < frame.blocksize)
    (hdata : r.dataShards = packets.length)
    (hnr : r.nrShards = packets.length + parityShards packets.length r.percentage)
    (hpct : (r.percentage : ℤ) = frame.fecPercentage)
    (hparity : parity = cfg.reedSolomon.encode packets (parityShards packets.length r.percentage))
    (hshards : r.shards = packets ++ parity) : (writeShardHeaders cfg packet lowseq i k r).Carries cfg frame block := by
  have hlength : packets.length = (dataShards block frame.blocksize).length := by
    rw [← hpackets, ← hbodies, writeDataHeaders, List.length_mapIdx, List.length_map]
  have htake : (writeShardHeaders cfg packet lowseq i k r).shards.take r.dataShards =
      packets.mapIdx (writeShardHeader cfg packet lowseq i k r) := by
    rw [writeShardHeaders, hshards, List.mapIdx_append, hdata]
    exact List.take_left' List.length_mapIdx
  have hdrop : (writeShardHeaders cfg packet lowseq i k r).shards.drop r.dataShards =
      parity.mapIdx fun x => writeShardHeader cfg packet lowseq i k r (x + packets.length) := by
    rw [writeShardHeaders, hshards, List.mapIdx_append, hdata]
    exact List.drop_left' List.length_mapIdx
  have hbefore : (packets.mapIdx (writeShardHeader cfg packet lowseq i k r)).map RawPacket.beforeFec = packets := by
    subst hpackets hbodies
    apply List.ext_getElem
    · simp
    · intro x h₁ h₂
      simp [writeDataHeaders, writeShardHeader, RawPacket.beforeFec]
  refine ⟨?_, hpct, ?_, ?_, ?_⟩
  · rw [← length_dataShards hblocksize, ← hlength]
    exact hdata
  · rw [← hdata] at hnr
    exact hnr
  · refine (congrArg (List.map RawPacket.payload) htake).trans ?_
    rw [map_payload_mapIdx (by intro x p; rfl), ← hpackets, ← hbodies, writeDataHeaders,
      map_payload_mapIdx (by intro x p; rfl), List.map_map]
    rfl
  · refine (congrArg (List.map RawPacket.payload) hdrop).trans ?_
    rw [map_payload_mapIdx (by intro x p; rfl), hparity, ← hdata]
    exact congrArg (fun l => (cfg.reedSolomon.encode l _).map RawPacket.payload)
      (((congrArg (List.map RawPacket.beforeFec) htake).trans hbefore).symm)

/-- The headers that a block's shards get after FEC, when the data shards have theirs. -/
lemma writeShardHeaders_numbered {r : Fec RawPacket} {lowseq : BitVec 32} {i k : ℕ} (hi : i < k) (hk : k ≤ 4)
    (hlength : r.shards.length = r.nrShards) (hle : r.dataShards ≤ r.nrShards) (hfew : r.nrShards < 1024)
    (hpct : r.percentage < 2 ^ 8)
    (hdata : ∀ x (hx : x < r.shards.length), x < r.dataShards →
      r.shards[x].streamPacketIndex = (lowseq + BitVec.ofNat 32 x) <<< 8 ∧
        (r.shards[x].flags &&& cfg.flags.sof ≠ 0 ↔ x = 0) ∧
        (r.shards[x].flags &&& cfg.flags.eof ≠ 0 ↔ x = r.dataShards - 1)) :
    (writeShardHeaders cfg packet lowseq i k r).Numbered cfg.flags lowseq i k where
  length_shards := List.length_mapIdx.trans hlength
  dataShards_le := hle
  sequenceNumber x hx := by simp only [writeShardHeaders, List.getElem_mapIdx, writeShardHeader]
  fecInfo x hx := by
    have hx' : x < r.shards.length := List.length_mapIdx ▸ hx
    simp only [writeShardHeaders, List.getElem_mapIdx, writeShardHeader]
    exact readFecInfo_fecInfo (by omega) (by omega) hpct
  multiFecBlocks x hx := by
    simp only [writeShardHeaders, List.getElem_mapIdx, writeShardHeader]
    exact readMultiFecBlocks_multiFecBlocks hi hk
  streamPacketIndex x hx hlt := by
    simp only [writeShardHeaders, List.getElem_mapIdx, writeShardHeader]
    exact (hdata x (List.length_mapIdx ▸ hx) hlt).1
  sof x hx hlt := by
    simp only [writeShardHeaders, List.getElem_mapIdx, writeShardHeader]
    exact (hdata x (List.length_mapIdx ▸ hx) hlt).2.1
  eof x hx hlt := by
    simp only [writeShardHeaders, List.getElem_mapIdx, writeShardHeader]
    exact (hdata x (List.length_mapIdx ▸ hx) hlt).2.2

/-- Every block of a frame is sent, and numbered if it is not too large. -/
theorem sendBlock_numbered (packet : Packet) (hmin : cfg.minRequiredFecPackets = 0)
    (hblocksize : 0 < frame.blocksize) (hpct : 0 ≤ frame.fecPercentage) (hpct' : frame.fecPercentage ≤ 255) {i k : ℕ}
    (hi : i < k) (hk : k ≤ 4) (lowseq : BitVec 32) (block : Str) :
    ∃ fec, sendBlock cfg packet lowseq i k frame block = some fec ∧ fec.shards.length = fec.nrShards ∧
      fec.Carries cfg frame block ∧ (fec.nrShards < 1024 → fec.Numbered cfg.flags lowseq i k) := by
  generalize hbodies : (dataShards block frame.blocksize).map
    (fun s => { payload := s.drop videoPacketRawSize : RawPacket }) = bodies
  generalize hpackets : writeDataHeaders cfg packet lowseq i k bodies = packets
  obtain ⟨r, hr, hdata, hnr, hpercentage, hshards⟩ :=
    encode_of_le cfg.reedSolomon.encode packets frame.fecPercentage.toNat (Nat.zero_le _)
  rw [← hpercentage] at hnr hshards
  have hparity : (if r.percentage ≠ 0 then
        cfg.reedSolomon.encode packets (parityShards packets.length r.percentage) else []) =
      cfg.reedSolomon.encode packets (parityShards packets.length r.percentage) := by
    by_cases h0 : r.percentage = 0
    · -- without FEC the library is asked for no shards
      rw [if_neg (not_not.mpr h0)]
      symm
      rw [← List.length_eq_zero_iff, cfg.reedSolomon.length_encode, h0, parityShards]
      simp
    · rw [if_pos h0]
  rw [hparity] at hshards
  have hlength : r.shards.length = r.nrShards := by
    rw [hshards, hnr, List.length_append, cfg.reedSolomon.length_encode]
  have hbody : bodies.length = r.dataShards := by
    rw [hdata, ← hpackets, writeDataHeaders, List.length_mapIdx]
  refine ⟨writeShardHeaders cfg packet lowseq i k r, ?_, List.length_mapIdx.trans hlength,
    writeShardHeaders_carries hbodies hpackets hblocksize hdata hnr (by omega) rfl hshards, ?_⟩
  · rw [sendBlock]
    simp only [hbodies, hpackets, toSize, if_pos hpct, hmin, le_refl, if_true, Int.toNat_zero, Option.bind_eq_bind,
      Option.bind_some, hr]
  · intro hfew
    apply writeShardHeaders_numbered hi hk hlength (by omega) hfew (by omega)
    intro x hx hlt
    have hxp : x < packets.length := by omega
    have hget : r.shards[x] = packets[x] := by
      simp only [hshards, List.getElem_append_left hxp]
    subst hpackets
    rw [hget, ← hbody]
    exact writeDataHeaders_spec lowseq i k bodies hxp

/-- The blocks of a frame from a block index on. -/
theorem sendBlocks_numbered (packet : Packet) (hmin : cfg.minRequiredFecPackets = 0)
    (hblocksize : 0 < frame.blocksize) (hpct : 0 ≤ frame.fecPercentage) (hpct' : frame.fecPercentage ≤ 255) {k : ℕ}
    (hk : k ≤ 4) (blocks : List Str) (i : ℕ) (hi : i + blocks.length = k) (lowseq : BitVec 32) :
    ∃ fecs, sendBlocks cfg packet frame k lowseq i blocks =
        some (fecs, lowseq + BitVec.ofNat 32 (sentShards fecs).length) ∧
      List.Forall₂ (Fec.Carries cfg frame) blocks fecs ∧
      ((∀ fec ∈ fecs, fec.nrShards < 1024) → BlocksNumbered cfg.flags k lowseq i fecs) := by
  induction blocks generalizing i lowseq with
  | nil => exact ⟨[], by simp [sendBlocks, sentShards], List.Forall₂.nil, fun _ => trivial⟩
  | cons block blocks ih =>
    rw [List.length_cons] at hi
    obtain ⟨fec, hfec, hlength, hcarries, hnumbered⟩ := sendBlock_numbered packet (i := i) hmin hblocksize hpct
      hpct' (by omega) hk lowseq block
    obtain ⟨fecs, hfecs, hcarry, hrest⟩ := ih (i + 1) (by omega) (lowseq + BitVec.ofNat 32 fec.nrShards)
    refine ⟨fec :: fecs, ?_, List.Forall₂.cons hcarries hcarry, ?_⟩
    · have hsum : lowseq + BitVec.ofNat 32 fec.nrShards + BitVec.ofNat 32 (sentShards fecs).length =
          lowseq + BitVec.ofNat 32 (sentShards (fec :: fecs)).length := by
        rw [sentShards, sentShards, List.flatMap_cons, List.length_append, hlength, BitVec.add_assoc,
          BitVec.ofNat_add_ofNat]
      simp only [sendBlocks, hfec, hfecs, Option.bind_eq_bind, Option.bind_some, hsum]
    · intro hfew
      refine ⟨hnumbered (hfew fec List.mem_cons_self), ?_⟩
      rw [hlength]
      exact hrest fun fec' h => hfew fec' (List.mem_cons_of_mem fec h)

/-- A frame that is sent. -/
theorem sendFrame_numbered (hmin : cfg.minRequiredFecPackets = 0)
    (hfec : 1 ≤ cfg.fecPercentage ∧ cfg.fecPercentage ≤ 255)
    {lowseq lowseq' : BitVec 32} {fecs : List (Fec RawPacket)}
    (h : sendFrame cfg lowseq packet = some (fecs, lowseq')) :
    lowseq' = lowseq + BitVec.ofNat 32 (sentShards fecs).length ∧ SentAs cfg packet fecs ∧
      ((∀ fec ∈ fecs, fec.nrShards < 1024) → BlocksNumbered cfg.flags fecs.length lowseq 0 fecs) := by
  simp only [sendFrame, Option.bind_eq_bind, Option.bind_eq_some_iff] at h
  obtain ⟨frame, hframe, h⟩ := h
  obtain ⟨q, D, hps, hq, hmax, hD, -, hint, header, hheader⟩ := packetize_inv hfec hframe
  have hframe' := hframe
  rw [hps] at hframe
  have hsplit := split_of_packetize hfec.1 hq hmax hD hint hheader hframe
  have hblocksize : frame.blocksize = q + 32 := by
    rw [packetize_eq hq hmax hD hint hheader, Option.some.injEq] at hframe
    rw [← hframe]
  have hpct : 0 ≤ frame.fecPercentage ∧ frame.fecPercentage ≤ 255 := by
    rcases hsplit.on_or_off with h0 | h0 <;> rw [h0] <;> omega
  obtain ⟨fecs', hfecs, hcarry, hnumbered⟩ := sendBlocks_numbered packet hmin (by omega) hpct.1 hpct.2
    hsplit.atMostFour frame.blocks 0 (Nat.zero_add _) lowseq
  rw [hfecs, Option.some.injEq, Prod.mk.injEq] at h
  obtain ⟨rfl, rfl⟩ := h
  refine ⟨rfl, ⟨frame, hframe', hcarry⟩, ?_⟩
  rw [← hcarry.length_eq]
  exact hnumbered

end Block

/-! ### A session -/

section Session

variable {cfg : VideoStream}

/-- Whatever frames a session sends, they are sent in order and numbered from its `lowseq` on. -/
theorem sendFrames_numbered (hmin : cfg.minRequiredFecPackets = 0)
    (hfec : 1 ≤ cfg.fecPercentage ∧ cfg.fecPercentage ≤ 255) (packets : List Packet) {lowseq lowseq' : BitVec 32}
    {frames : List (List (Fec RawPacket))} (h : sendFrames cfg lowseq packets = some (frames, lowseq')) :
    List.Forall₂ (SentAs cfg) packets frames ∧
      lowseq' = lowseq + BitVec.ofNat 32 (frames.flatMap sentShards).length ∧
      ((∀ fecs ∈ frames, ∀ fec ∈ fecs, fec.nrShards < 1024) → FramesNumbered cfg.flags lowseq frames) := by
  induction packets generalizing lowseq lowseq' frames with
  | nil =>
    obtain ⟨rfl, rfl⟩ := Prod.mk.inj (Option.some.inj h)
    exact ⟨List.Forall₂.nil, (BitVec.add_zero _).symm, fun _ => trivial⟩
  | cons packet packets ih =>
    simp only [sendFrames, Option.bind_eq_bind, Option.bind_eq_some_iff, Option.some.injEq] at h
    obtain ⟨⟨fecs, lowseq₁⟩, hframe, ⟨frames₁, lowseq₂⟩, hframes, heq⟩ := h
    obtain ⟨rfl, rfl⟩ := Prod.mk.inj heq
    obtain ⟨rfl, hsent, hnumbered⟩ := sendFrame_numbered hmin hfec hframe
    obtain ⟨hrest, rfl, hnumbered'⟩ := ih hframes
    refine ⟨List.Forall₂.cons hsent hrest, ?_, ?_⟩
    · rw [List.flatMap_cons, List.length_append, BitVec.add_assoc, BitVec.ofNat_add_ofNat]
    · intro hfew
      exact ⟨hnumbered (hfew fecs List.mem_cons_self),
        hnumbered' fun fecs' h' => hfew fecs' (List.mem_cons_of_mem fecs h')⟩

lemma BlocksNumbered.consecutive {flags : PacketFlags} {k i : ℕ} {start : BitVec 32} {fecs : List (Fec RawPacket)}
    (h : BlocksNumbered flags k start i fecs) : Consecutive start (sentShards fecs) := by
  induction fecs generalizing start i with
  | nil => exact Consecutive.nil start
  | cons fec fecs ih => exact Consecutive.append h.1.sequenceNumber (ih h.2)

lemma FramesNumbered.consecutive {flags : PacketFlags} {start : BitVec 32} {frames : List (List (Fec RawPacket))}
    (h : FramesNumbered flags start frames) : Consecutive start (frames.flatMap sentShards) := by
  induction frames generalizing start with
  | nil => exact Consecutive.nil start
  | cons fecs frames ih => exact Consecutive.append h.1.consecutive (ih h.2)

/-- Every frame can be sent whose packets have room for more than their headers. -/
theorem sendFrames_isSome (hmin : cfg.minRequiredFecPackets = 0)
    (hfec : 1 ≤ cfg.fecPercentage ∧ cfg.fecPercentage ≤ 255) (hps : 16 < cfg.packetsize)
    (hint : 25500 / (100 + cfg.fecPercentage) * (cfg.packetsize + 16) < 2 ^ 31) (packets : List Packet)
    (lowseq : BitVec 32) : (sendFrames cfg lowseq packets).isSome := by
  induction packets generalizing lowseq with
  | nil => rfl
  | cons packet packets ih =>
    obtain ⟨q, hq⟩ := Int.eq_ofNat_of_zero_le (show 0 ≤ cfg.packetsize - 16 by omega)
    have hps' : cfg.packetsize = q + 16 := by omega
    rw [hps'] at hint
    obtain ⟨header, frame, -, hframe, hblocksize, -, hsplit⟩ := packetize_split (by omega) hfec hint packet
    rw [← hps'] at hframe
    have hpct : 0 ≤ frame.fecPercentage ∧ frame.fecPercentage ≤ 255 := by
      rcases hsplit.on_or_off with h0 | h0 <;> rw [h0] <;> omega
    obtain ⟨fecs, hfecs, -⟩ := sendBlocks_numbered packet hmin (by omega) hpct.1 hpct.2 hsplit.atMostFour
      frame.blocks 0 (Nat.zero_add _) lowseq
    obtain ⟨⟨frames, lowseq'⟩, hframes⟩ := Option.isSome_iff_exists.mp
      (ih (lowseq + BitVec.ofNat 32 (sentShards fecs).length))
    simp only [sendFrames, sendFrame, hframe, hfecs, hframes, Option.bind_eq_bind, Option.bind_some, Option.isSome_some]

/-- Every frame of a session is sent, all of its blocks in order with their data and parity packets.  Over all frames
the shards carry consecutive sequence numbers, and every shard tells its block, its place and the sizes. -/
theorem session_numbered (hmin : cfg.minRequiredFecPackets = 0)
    (hfec : 1 ≤ cfg.fecPercentage ∧ cfg.fecPercentage ≤ 255) (packets : List Packet) {lowseq lowseq' : BitVec 32}
    {frames : List (List (Fec RawPacket))} (h : sendFrames cfg lowseq packets = some (frames, lowseq'))
    (hfew : ∀ fecs ∈ frames, ∀ fec ∈ fecs, fec.nrShards < 1024) :
    List.Forall₂ (SentAs cfg) packets frames ∧
      lowseq' = lowseq + BitVec.ofNat 32 (frames.flatMap sentShards).length ∧
      Consecutive lowseq (frames.flatMap sentShards) ∧ FramesNumbered cfg.flags lowseq frames := by
  obtain ⟨hsent, hlowseq, hnumbered⟩ := sendFrames_numbered hmin hfec packets h
  exact ⟨hsent, hlowseq, (hnumbered hfew).consecutive, hnumbered hfew⟩

/-- A stream where each block has one data shard; the parity of one shard is a copy of it. -/
def smallStream : VideoStream where
  flags := ⟨1, 4, 2, 0x10, by decide, by decide, by decide, by decide, by decide⟩
  reedSolomon :=
    { encode := fun data n => List.replicate n (data.headD { payload := [] })
      length_encode := fun _ _ => List.length_replicate .. }
  packetsize := 1024
  fecPercentage := 20
  minRequiredFecPackets := 0

def smallPackets : List Packet := [⟨[7, 8, 9], true, false, 1, 0, 0⟩, ⟨[7, 8, 9], false, false, 2, 0, 0⟩]

/-- Two frames over the wrap of the sequence number. -/
theorem session_numbered_two : ∃ frames lowseq', sendFrames smallStream 65534 smallPackets = some (frames, lowseq') ∧
    List.Forall₂ (SentAs smallStream) smallPackets frames ∧ lowseq' = 65538 ∧
    Consecutive 65534 (frames.flatMap sentShards) ∧ FramesNumbered smallStream.flags 65534 frames := by
  obtain ⟨⟨frames, lowseq'⟩, h⟩ := Option.isSome_iff_exists.mp
    (@sendFrames_isSome smallStream rfl (by decide) (by decide) (by decide) smallPackets 65534)
  have hall : ((sendFrames smallStream 65534 smallPackets).map fun r => r.1.all fun fecs =>
      fecs.all fun fec => decide (fec.nrShards < 1024)) = some true := by decide +kernel
  rw [h] at hall
  have hfew : ∀ fecs ∈ frames, ∀ fec ∈ fecs, fec.nrShards < 1024 := by simpa using hall
  obtain ⟨hsent, -, hnumbered⟩ := session_numbered rfl (by decide) smallPackets h hfew
  have hlowseq : (sendFrames smallStream 65534 smallPackets).map Prod.snd = some 65538 := by decide +kernel
  rw [h] at hlowseq
  exact ⟨frames, lowseq', h, hsent, Option.some.inj hlowseq, hnumbered⟩

end Session

end MidnightSun.Stream
