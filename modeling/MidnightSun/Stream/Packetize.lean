import MidnightSun.Lib.Bytes
import MidnightSun.Lib.Run
import MidnightSun.Lib.Slices
import MidnightSun.Util.Arith
import MidnightSun.Boost.PropertyTree

/-!
# From an encoded frame to FEC blocks (src/stream.cpp, `videoBroadcastThread` and `concat_and_insert`)

The frame header is put before the encoded frame, room for a packet header is inserted before every packet's share of
the two, and the result is split into at most four FEC blocks.
-/

namespace MidnightSun.Stream

open Lib Util

/-- `sizeof(NV_VIDEO_PACKET)`. -/
def nvVideoPacketSize : ℤ := 16
/-- `MAX_RTP_HEADER_SIZE`. -/
def maxRtpHeaderSize : ℤ := 16
/-- `sizeof(video_packet_raw_t)`. -/
def videoPacketRawSize : ℕ := 32
/-- `DATA_SHARDS_MAX`. -/
def dataShardsMax : ℤ := 255
/-- `MAX_FEC_BLOCKS`. -/
def maxFecBlocks : ℕ := 4

/-- `video::packet_t`, with its replacements applied and what `videoBroadcastThread` computes from its time stamp. -/
structure Packet where
  data : Str
  isIdr : Bool
  afterRefFrameInvalidation : Bool
  frameIndex : ℤ
  frameProcessingLatency : UInt16
  rtpTimestamp : BitVec 32

/-! ### The frame header -/

/-- `video_short_frame_header_t`. -/
structure ShortFrameHeader where
  headerType : UInt8
  frameProcessingLatency : UInt16
  frameType : UInt8
  lastPayloadLen : UInt16
  unknown : UInt8 × UInt8 := (0, 0)

/-- Its eight bytes. -/
def ShortFrameHeader.bytes (h : ShortFrameHeader) : Str :=
  h.headerType :: leBytes 2 h.frameProcessingLatency.toNat ++ h.frameType :: leBytes 2 h.lastPayloadLen.toNat ++
    [h.unknown.1, h.unknown.2]

@[simp] lemma ShortFrameHeader.length_bytes (h : ShortFrameHeader) : h.bytes.length = 8 := by
  simp [bytes]

/-- `lastPayloadLen`, which has 16 bits. -/
def lastPayloadLen (packetsize : ℤ) (size : ℕ) : Option UInt16 := do
  let room ← toSize (packetsize - nvVideoPacketSize)
  let rest ← modSize (size + 8) room
  let len := UInt16.ofNat rest
  some (if len = 0 then UInt16.ofNat room else len)

def frameHeader (packetsize : ℤ) (packet : Packet) : Option ShortFrameHeader := do
  let len ← lastPayloadLen packetsize packet.data.length
  some
    { headerType := 1
      frameProcessingLatency := packet.frameProcessingLatency
      frameType := if packet.isIdr then 2 else if packet.afterRefFrameInvalidation then 5 else 1
      lastPayloadLen := len }

/-! ### `concat_and_insert` -/

/-- `bs` copied into a buffer at an offset. -/
def overwrite (buf : Str) (off : ℕ) (bs : Str) : Str := buf.take off ++ bs ++ buf.drop (off + bs.length)

/-- The iterations of `concat_and_insert` from `x` on, `left` of them; `next` is what is left between `next` and
`end`. -/
def concatLoop (insertSize sliceSize dataSize elements : ℕ) (data2 : Str) (left x : ℕ) (next result : Str) : Str :=
  match left with
  | 0 => result
  | left + 1 =>
    let p := x * (insertSize + sliceSize)
    let size := if x = elements - 1 then dataSize - x * sliceSize else sliceSize
    if next.length < size then
      let copyLen := next.length
      let result := overwrite result (p + insertSize) next
      let result := overwrite result (p + copyLen + insertSize) (data2.take (size - copyLen))
      concatLoop insertSize sliceSize dataSize elements data2 left (x + 1) (data2.drop (size - copyLen)) result
    else
      concatLoop insertSize sliceSize dataSize elements data2 left (x + 1) (next.drop size)
        (overwrite result (p + insertSize) (next.take size))

lemma overwrite_overwrite {buf : Str} {off : ℕ} (h : off ≤ buf.length) (a b : Str) :
    overwrite (overwrite buf off a) (off + a.length) b = overwrite buf off (a ++ b) := by
  have hlen : (buf.take off ++ a).length = off + a.length := by
    rw [List.length_append, List.length_take, Nat.min_eq_left h]
  have htake : (overwrite buf off a).take (off + a.length) = buf.take off ++ a := by
    rw [overwrite, ← hlen, List.take_left]
  have hdrop : (overwrite buf off a).drop (off + a.length + b.length) =
      buf.drop (off + (a ++ b).length) := by
    rw [overwrite, ← List.drop_drop, ← hlen, List.drop_left, hlen, List.drop_drop, List.length_append,
      Nat.add_assoc]
  rw [overwrite, htake, hdrop, overwrite, List.append_assoc (buf.take off)]

lemma overwrite_middle (done blank bs more : Str) (h : blank.length = bs.length) :
    overwrite (done ++ (blank ++ more)) done.length bs = done ++ (bs ++ more) := by
  rw [overwrite, List.take_left, ← List.drop_drop, List.drop_left, ← h, List.drop_left, List.append_assoc]

lemma overwrite_slice {ins size left : ℕ} {rest : Str} (hsize : size ≤ rest.length) (done : Str) :
    overwrite (done ++ List.replicate ((left + 1) * ins + rest.length) 0) (done.length + ins) (rest.take size) =
      done ++ (List.replicate ins 0 ++ rest.take size) ++ List.replicate (left * ins + (rest.drop size).length) 0 := by
  have hblank : List.replicate ((left + 1) * ins + rest.length) (0 : UInt8) =
      List.replicate ins 0 ++ (List.replicate size 0 ++
        List.replicate (left * ins + (rest.drop size).length) 0) := by
    rw [List.replicate_append_replicate, List.replicate_append_replicate, List.length_drop]
    congr 1
    rw [Nat.succ_mul]
    omega
  have hoff : done.length + ins = (done ++ List.replicate ins (0 : UInt8)).length := by simp
  rw [hblank, hoff, ← List.append_assoc done, overwrite_middle]
  · simp only [List.append_assoc]
  · simp [hsize]

section ConcatLoop

variable {ins q dataSize elements : ℕ} {data2 : Str}

/-- One iteration, where `rest` is what is not copied yet and `next` its part in the first buffer, or all of it once
the second buffer is reached: the slice is copied wherever it lies. -/
lemma concatLoop_succ (left : ℕ) {x size : ℕ} {next rest done : Str} (hrest : rest = next ∨ rest = next ++ data2)
    (hsize : size ≤ rest.length) (hif : (if x = elements - 1 then dataSize - x * q else q) = size)
    (hdone : done.length = x * (ins + q)) :
    ∃ next', (rest.drop size = next' ∨ rest.drop size = next' ++ data2) ∧
      concatLoop ins q dataSize elements data2 (left + 1) x next
          (done ++ List.replicate ((left + 1) * ins + rest.length) 0) =
        concatLoop ins q dataSize elements data2 left (x + 1) next'
          (done ++ (List.replicate ins 0 ++ rest.take size) ++
            List.replicate (left * ins + (rest.drop size).length) 0) := by
  rw [concatLoop]
  simp only [hif, ← hdone]
  by_cases hlt : next.length < size
  · -- the slice extends into the second buffer
    have happ : rest = next ++ data2 := by
      rcases hrest with h | h
      · rw [h] at hsize
        omega
      · exact h
    have htake : rest.take size = next ++ data2.take (size - next.length) := by
      rw [happ, List.take_append, List.take_of_length_le (by omega)]
    have hoff : done.length + next.length + ins = done.length + ins + next.length := by omega
    have hle : done.length + ins ≤ (done ++ List.replicate ((left + 1) * ins + rest.length) (0 : UInt8)).length := by
      rw [List.length_append, List.length_replicate, Nat.succ_mul]
      omega
    refine ⟨data2.drop (size - next.length), Or.inl ?_, ?_⟩
    · rw [happ, List.drop_append, List.drop_of_length_le (by omega), List.nil_append]
    · rw [if_pos hlt, hoff, overwrite_overwrite hle, ← htake, overwrite_slice hsize]
  · have htake : rest.take size = next.take size := by
      rcases hrest with h | h
      · rw [h]
      · rw [h, List.take_append_of_le_length (by omega)]
    refine ⟨next.drop size, ?_, ?_⟩
    · rcases hrest with h | h
      · exact Or.inl (by rw [h])
      · exact Or.inr (by rw [h, List.drop_append_of_le_length (by omega)])
    · rw [if_neg hlt, ← htake, overwrite_slice hsize]

/-- The iterations from `x` on put the slices of what is not copied yet behind room for a header each. -/
theorem concatLoop_eq (ins : ℕ) (hq : 0 < q) (left x : ℕ) (next rest done : Str)
    (hrest : rest = next ∨ rest = next ++ data2)
    (hdata : dataSize = x * q + rest.length) (helements : elements = x + left)
    (hleft : sliceCount q rest.length = left) (hdone : done.length = x * (ins + q)) :
    concatLoop ins q dataSize elements data2 left x next (done ++ List.replicate (left * ins + rest.length) 0) =
      done ++ (slices q rest).flatMap fun s => List.replicate ins 0 ++ s := by
  induction left generalizing x next rest done with
  | zero =>
    have hle := le_sliceCount_mul hq rest.length
    rw [hleft, Nat.zero_mul] at hle
    have hnil : rest = [] := List.length_eq_zero_iff.mp (by omega)
    subst hnil
    simp [concatLoop]
  | succ left ih =>
    have hne : rest ≠ [] := by
      rintro rfl
      rw [List.length_nil, sliceCount_zero] at hleft
      omega
    have hlt := sliceCount_mul_lt hq rest.length
    have hle := le_sliceCount_mul hq rest.length
    rw [hleft, Nat.succ_mul] at hlt hle
    rw [slices_eq_cons hq hne, List.flatMap_cons, ← List.append_assoc]
    cases left with
    | zero =>
      -- the last slice is all that is left
      have hif : (if x = elements - 1 then dataSize - x * q else q) = rest.length := by
        rw [if_pos (by omega)]
        omega
      obtain ⟨next', -, heq⟩ := concatLoop_succ 0 hrest (Nat.le_refl _) hif hdone
      rw [heq, concatLoop, List.drop_length, List.take_length, List.take_of_length_le (by omega),
        List.drop_of_length_le (by omega), slices_nil]
      simp
    | succ left =>
      have hmul : q ≤ (left + 1) * q := Nat.le_mul_of_pos_left q (by omega)
      have hif : (if x = elements - 1 then dataSize - x * q else q) = q := if_neg (by omega)
      have hdrop : (rest.drop q).length = rest.length - q := List.length_drop
      have hcount : sliceCount q (rest.drop q).length = left + 1 := by
        have h := sliceCount_add hq (rest.length - q)
        rw [Nat.add_sub_cancel' (by omega), hleft] at h
        rw [hdrop]
        omega
      obtain ⟨next', hrest', heq⟩ := concatLoop_succ (left + 1) hrest (by omega) hif hdone
      rw [heq]
      apply ih (x + 1) next' (rest.drop q) (done ++ (List.replicate ins 0 ++ rest.take q)) hrest'
      · rw [hdata, hdrop, Nat.succ_mul]
        omega
      · omega
      · exact hcount
      · rw [List.length_append, List.length_append, List.length_replicate, List.length_take, hdone, Nat.succ_mul]
        omega

end ConcatLoop

def concatAndInsert (insertSize sliceSize : ℕ) (data1 data2 : Str) : Option Str := do
  let dataSize := data1.length + data2.length
  let rest ← modSize dataSize sliceSize
  let whole ← divSize dataSize sliceSize
  let elements := whole + if rest ≠ 0 then 1 else 0
  let result := List.replicate (elements * insertSize + dataSize) 0
  some (concatLoop insertSize sliceSize dataSize elements data2 elements 0 data1 result)

/-- `concat_and_insert` puts room for a header before every slice of the two buffers. -/
theorem concatAndInsert_eq {ins q : ℕ} (hq : 0 < q) (data1 data2 : Str) :
    concatAndInsert ins q data1 data2 =
      some ((slices q (data1 ++ data2)).flatMap fun s => List.replicate ins 0 ++ s) := by
  rw [concatAndInsert]
  simp only [modSize_of_pos hq, divSize_of_pos hq, Option.bind_eq_bind, Option.bind_some,
    div_add_ite_eq_sliceCount hq, ← List.length_append]
  have h := concatLoop_eq ins hq (sliceCount q (data1 ++ data2).length) 0 data1 (data1 ++ data2) []
    (Or.inr rfl) (by rw [Nat.zero_mul, Nat.zero_add]) (Nat.zero_add _).symm rfl (by simp)
  rw [List.nil_append, List.nil_append] at h
  rw [h]

/-! ### FEC blocks -/

/-- `std::string_view::substr`; `none` is `std::out_of_range`. -/
def substr (s : Str) (pos : ℕ) (count : Option ℕ) : Option Str :=
  if pos ≤ s.length then
    match count with
    | some n => some ((s.drop pos).take n)
      | none => some (s.drop pos)
  else none

/-- A frame ready to be sent, block by block. -/
structure FecFrame where
  fecPercentage : ℤ
  blocksize : ℕ
  /-- the bytes that are split -/
  payload : Str
  blocks : List Str
  deriving DecidableEq

/-- `max_data_shards_per_fec_block`. -/
def maxDataShards (fecPercentage : ℤ) : Option ℤ := divInt (dataShardsMax * 100) (100 + fecPercentage)

/-- The split of the payload at multiples of `alignedSize`. -/
def splitBlocks (payload : Str) (fecBlocksNeeded alignedSize : ℕ) : Option (List Str) :=
  (List.range fecBlocksNeeded).mapM fun x =>
    if x = fecBlocksNeeded - 1 then substr payload (x * alignedSize) none
    else substr payload (x * alignedSize) (some alignedSize)

/-- `payload_new` and the size of a packet in it. -/
structure SpacedPayload where
  blocksize : ℤ
  payload : Str

/-- `videoBroadcastThread` from the frame header to `payload_new`. -/
def spacePayload (packetsize : ℤ) (packet : Packet) : Option SpacedPayload := do
  let header ← frameHeader packetsize packet
  let blocksize ← checkInt (packetsize + maxRtpHeaderSize)
  let payloadBlocksize ← toSize (blocksize - videoPacketRawSize)
  let payload ← concatAndInsert videoPacketRawSize payloadBlocksize header.bytes packet.data
  some { blocksize := blocksize, payload := payload }

/-- The computation of the FEC blocks from there. -/
def makeBlocks (fecPercentage blocksize : ℤ) (payload : Str) : Option FecFrame := do
  let maxShards ← maxDataShards fecPercentage
  let maxData ← checkInt (maxShards * blocksize)
  let maxData ← toSize maxData
  let needed ← divSize (payload.length + (maxData - 1)) maxData
  -- FEC is turned off for a frame that would need too many blocks
  let off := decide (maxFecBlocks < needed)
  let needed := if off then maxFecBlocks else needed
  let blocksize ← toSize blocksize
  let unaligned ← divSize payload.length needed
  let aligned ← divSize (unaligned + (blocksize - 1)) blocksize
  let blocks ← splitBlocks payload needed (aligned * blocksize)
  some
    { fecPercentage := if off then 0 else fecPercentage, blocksize := blocksize, payload := payload
      blocks := blocks }

/-- `videoBroadcastThread` from the frame header to the FEC blocks. -/
def packetize (packetsize fecPercentage : ℤ) (packet : Packet) : Option FecFrame := do
  let spaced ← spacePayload packetsize packet
  makeBlocks fecPercentage spaced.blocksize spaced.payload

lemma mapM_eq_some_map {α β : Type*} {f : α → Option β} {g : α → β} {l : List α} (h : ∀ x ∈ l, f x = some (g x)) :
    l.mapM f = some (l.map g) := by
  induction l with
  | nil => rfl
  | cons x l ih =>
    rw [List.mapM_cons, h x List.mem_cons_self, ih fun y hy => h y (List.mem_cons_of_mem x hy)]
    rfl

/-- A payload of just `k` aligned blocks, the last perhaps in part, is split into its slices. -/
theorem splitBlocks_eq {payload : Str} {k a : ℕ} (ha : 0 < a) (hk : sliceCount a payload.length = k) :
    splitBlocks payload k a = some (slices a payload) := by
  rw [splitBlocks, slices, hk]
  apply mapM_eq_some_map
  intro x hx
  rw [List.mem_range] at hx
  have hle := le_sliceCount_mul ha payload.length
  have hlt := sliceCount_mul_lt ha payload.length
  rw [hk] at hle hlt
  have hxk : (x + 1) * a ≤ k * a := Nat.mul_le_mul_right a hx
  rw [Nat.succ_mul] at hxk
  have hpos : x * a ≤ payload.length := by omega
  by_cases hlast : x = k - 1
  · have hk1 : k * a = x * a + a := by
      rw [show k = x + 1 by omega, Nat.succ_mul]
    rw [if_pos hlast, substr, if_pos hpos, List.take_of_length_le]
    rw [List.length_drop]
    omega
  · rw [if_neg hlast, substr, if_pos hpos]

/-! ### The frame as a whole -/

lemma maxDataShards_of_pos {fec : ℤ} (h : 0 < 100 + fec) : maxDataShards fec = some (25500 / (100 + fec)) :=
  divInt_of_pos (by decide) (by decide) h

lemma eq_of_maxDataShards {fec D : ℤ} (h : 0 < 100 + fec) (hmax : maxDataShards fec = some D) :
    25500 / (100 + fec) = D := Option.some.inj ((maxDataShards_of_pos h).symm.trans hmax)

lemma maxDataShards_eq {fec : ℤ} (h₁ : 1 ≤ fec) (h₂ : fec ≤ 255) :
    ∃ D : ℕ, maxDataShards fec = some (D : ℤ) ∧ 71 ≤ D ∧ (D : ℤ) * (100 + fec) ≤ 25500 := by
  have hdiv := maxDataShards_of_pos (show 0 < 100 + fec by omega)
  have hge : 71 ≤ 25500 / (100 + fec) := by
    rw [Int.le_ediv_iff_mul_le (by omega)]
    omega
  refine ⟨(25500 / (100 + fec)).toNat, ?_, ?_, ?_⟩
  · rw [Int.toNat_of_nonneg (by omega), hdiv]
  · omega
  · rw [Int.toNat_of_nonneg (by omega)]
    exact Int.ediv_mul_le _ (by omega)

/-- The number of packets of a frame of `n` bytes, where each packet takes `q` bytes of header and frame. -/
def packetCount (q n : ℕ) : ℕ := sliceCount q (8 + n)

/-- The FEC blocks that so many packets need. -/
def blockCount (maxShards packets : ℕ) : ℕ := min maxFecBlocks (sliceCount maxShards packets)

section Frame

variable {q D : ℕ} {fec : ℤ} {packet : Packet} {header : ShortFrameHeader}

/-- The header and the frame with room for a header before each packet's share. -/
def spaced (q : ℕ) (header : ShortFrameHeader) (packet : Packet) : Str :=
  (slices q (header.bytes ++ packet.data)).flatMap fun s => List.replicate videoPacketRawSize 0 ++ s

lemma slices_spaced (hq : 0 < q) : slices (q + 32) (spaced q header packet) =
    (slices q (header.bytes ++ packet.data)).map fun s => List.replicate videoPacketRawSize 0 ++ s := by
  have h := slices_insert hq (List.replicate videoPacketRawSize (0 : UInt8)) (header.bytes ++ packet.data)
  rw [List.length_replicate, videoPacketRawSize, Nat.add_comm 32] at h
  exact h

lemma sliceCount_spaced (header : ShortFrameHeader) (hq : 0 < q) :
    sliceCount (q + 32) (spaced q header packet).length = packetCount q packet.data.length := by
  rw [← length_slices, slices_spaced hq, List.length_map, length_slices, List.length_append,
    ShortFrameHeader.length_bytes, packetCount]

lemma length_spaced (header : ShortFrameHeader) (packet : Packet) (hq : 0 < q) : (spaced q header packet).length =
    packetCount q packet.data.length * 32 + (8 + packet.data.length) := by
  have hlen : ∀ l : List Str, (l.flatMap fun s => List.replicate videoPacketRawSize 0 ++ s).length =
      l.length * 32 + l.flatten.length := by
    intro l
    induction l with
    | nil => rfl
    | cons s l ih =>
      rw [List.flatMap_cons, List.length_append, ih, List.length_append, List.length_replicate, List.flatten_cons,
        List.length_append, List.length_cons, videoPacketRawSize]
      omega
  rw [spaced, hlen, length_slices, flatten_slices hq, List.length_append, ShortFrameHeader.length_bytes, packetCount]

lemma packetCount_pos (hq : 0 < q) (n : ℕ) : 0 < packetCount q n := sliceCount_pos hq (by omega)

lemma blockCount_pos (hD : 0 < D) (hq : 0 < q) (n : ℕ) : 0 < blockCount D (packetCount q n) :=
  lt_min (by decide) (sliceCount_pos hD (packetCount_pos hq n))

lemma blockCount_le (maxShards packets : ℕ) : blockCount maxShards packets ≤ 4 := min_le_left _ _

/-- There are enough packets for every block. -/
lemma sliceCount_blockCount (hD : 71 ≤ D) {E : ℕ} (hE : 0 < E) :
    sliceCount (sliceCount (blockCount D E) E) E = blockCount D E := by
  have hk := blockCount_le D E
  have hpos : 0 < blockCount D E := lt_min (by decide) (sliceCount_pos (by omega) hE)
  apply sliceCount_sliceCount hpos
  rcases Nat.lt_or_ge 1 (blockCount D E) with h | h
  · have hED : 1 < sliceCount D E := Nat.lt_of_lt_of_le h (min_le_right _ _)
    have hlt : D < E := by
      by_contra hle
      have hone := (sliceCount_le_iff (n := E) (k := 1) (show 0 < D by omega)).mpr (by omega)
      omega
    have hsq : (blockCount D E - 1) * (blockCount D E - 1) ≤ 3 * 3 := Nat.mul_le_mul (by omega) (by omega)
    omega
  · have hsub : blockCount D E - 1 = 0 := by omega
    rw [hsub]
    exact hE

lemma sliceCount_unaligned (header : ShortFrameHeader) (packet : Packet) (hq : 0 < q) (hD : 0 < D) :
    sliceCount (q + 32) ((spaced q header packet).length / blockCount D (packetCount q packet.data.length)) =
      sliceCount (blockCount D (packetCount q packet.data.length)) (packetCount q packet.data.length) := by
  have hk := blockCount_le D (packetCount q packet.data.length)
  have hle := le_sliceCount_mul hq (8 + packet.data.length)
  have hlt := sliceCount_mul_lt hq (8 + packet.data.length)
  have hlen := length_spaced header packet hq
  apply sliceCount_div (blockCount_pos hD hq _)
  · rw [hlen, packetCount, Nat.mul_add]
    omega
  · rw [hlen, packetCount, Nat.mul_add] at *
    omega
  · omega

lemma frameHeader_eq (hq : 0 < q) (packet : Packet) : ∃ header, frameHeader (q + 16) packet = some header := by
  have hroom : toSize ((q : ℤ) + 16 - nvVideoPacketSize) = some q := by
    rw [nvVideoPacketSize, Int.add_sub_cancel, toSize_natCast]
  simp only [frameHeader, lastPayloadLen, hroom, modSize_of_pos hq, Option.bind_eq_bind, Option.bind_some]
  exact ⟨_, rfl⟩

/-- The spaced frame, if its block size is an `int`. -/
lemma spacePayload_eq (hq : 0 < q) (hint : q + 32 < 2 ^ 31) (hheader : frameHeader (q + 16) packet = some header) :
    spacePayload (q + 16) packet = some ⟨((q + 32 : ℕ) : ℤ), spaced q header packet⟩ := by
  have hblock : checkInt ((q : ℤ) + 16 + maxRtpHeaderSize) = some ((q + 32 : ℕ) : ℤ) := by
    have hsum : (q : ℤ) + 16 + maxRtpHeaderSize = ((q + 32 : ℕ) : ℤ) := by
      rw [maxRtpHeaderSize]
      omega
    rw [hsum, checkInt_of_fits (by omega) (by omega)]
  have hroom : toSize (((q + 32 : ℕ) : ℤ) - videoPacketRawSize) = some q := by
    rw [videoPacketRawSize, show ((q + 32 : ℕ) : ℤ) - ((32 : ℕ) : ℤ) = (q : ℤ) by omega, toSize_natCast]
  simp only [spacePayload, hheader, hblock, hroom, concatAndInsert_eq hq, Option.bind_eq_bind, Option.bind_some]
  rfl

lemma spacePayload_inv {packetsize : ℤ} {r : SpacedPayload} (h : spacePayload packetsize packet = some r) :
    ∃ q : ℕ, packetsize = q + 16 ∧ 0 < q ∧ q + 32 < 2 ^ 31 := by
  simp only [spacePayload, frameHeader, lastPayloadLen, Option.bind_eq_bind, Option.bind_eq_some_iff] at h
  obtain ⟨header, ⟨len, ⟨room, hroom, rest, hrest, -⟩, -⟩, blocksize, hblock, -⟩ := h
  obtain ⟨hge, rfl⟩ := of_ite_some hroom
  obtain ⟨⟨-, hlt⟩, -⟩ := of_ite_some hblock
  rw [nvVideoPacketSize] at hge hrest
  rw [maxRtpHeaderSize] at hlt
  have hpos : (packetsize - 16).toNat ≠ 0 := by
    intro h0
    rw [h0, modSize, if_pos rfl] at hrest
    cases hrest
  exact ⟨(packetsize - 16).toNat, by omega, by omega, by omega⟩

/-- The spaced frame is split into blocks of so many packets, the last perhaps smaller. -/
theorem makeBlocks_eq (hq : 0 < q) (hmax : maxDataShards fec = some (D : ℤ)) (hD : 71 ≤ D)
    (hint : D * (q + 32) < 2 ^ 31) :
    makeBlocks fec ((q + 32 : ℕ) : ℤ) (spaced q header packet) =
      some
        { fecPercentage := if maxFecBlocks < sliceCount D (packetCount q packet.data.length) then 0 else fec
          blocksize := q + 32
          payload := spaced q header packet
          blocks := slices
            (sliceCount (blockCount D (packetCount q packet.data.length)) (packetCount q packet.data.length) *
              (q + 32)) (spaced q header packet) } := by
  have hB : 0 < q + 32 := by omega
  have hdata : checkInt ((D : ℤ) * ((q + 32 : ℕ) : ℤ)) = some ((D * (q + 32) : ℕ) : ℤ) := by
    rw [← Int.natCast_mul, checkInt_of_fits (by omega) (by omega)]
  have hneeded : ((spaced q header packet).length + (D * (q + 32) - 1)) / (D * (q + 32)) =
      sliceCount D (packetCount q packet.data.length) := by
    rw [← sliceCount_spaced header hq, ← sliceCount_mul_eq (by omega) hB, sliceCount]
  have hk := blockCount_pos (D := D) (by omega) hq packet.data.length
  have hE := packetCount_pos hq packet.data.length
  have hA := sliceCount_pos hk hE
  have hcount : (if maxFecBlocks < sliceCount D (packetCount q packet.data.length) then maxFecBlocks
      else sliceCount D (packetCount q packet.data.length)) = blockCount D (packetCount q packet.data.length) := by
    rw [blockCount]
    split_ifs with h
    · exact (min_eq_left (Nat.le_of_lt h)).symm
    · exact (min_eq_right (Nat.not_lt.mp h)).symm
  have hparts : sliceCount
      (sliceCount (blockCount D (packetCount q packet.data.length)) (packetCount q packet.data.length) * (q + 32))
      (spaced q header packet).length = blockCount D (packetCount q packet.data.length) := by
    rw [sliceCount_mul_eq hA hB, sliceCount_spaced _ hq, sliceCount_blockCount hD hE]
  have hsplit := splitBlocks_eq (Nat.mul_pos hA hB) hparts
  have hunaligned := sliceCount_unaligned header packet hq (show 0 < D by omega)
  rw [sliceCount] at hunaligned
  rw [makeBlocks]
  simp only [Option.bind_eq_bind]
  rw [hmax, Option.bind_some, hdata, Option.bind_some, toSize_natCast, Option.bind_some,
    divSize_of_pos (Nat.mul_pos (show 0 < D by omega) hB), Option.bind_some, hneeded]
  simp only [decide_eq_true_eq]
  rw [hcount, toSize_natCast, Option.bind_some, divSize_of_pos hk, Option.bind_some, divSize_of_pos hB,
    Option.bind_some, hunaligned, hsplit, Option.bind_some]

/-- `videoBroadcastThread` splits the spaced frame. -/
theorem packetize_eq (hq : 0 < q) (hmax : maxDataShards fec = some (D : ℤ)) (hD : 71 ≤ D)
    (hint : D * (q + 32) < 2 ^ 31) (hheader : frameHeader (q + 16) packet = some header) :
    packetize (q + 16) fec packet =
      some
        { fecPercentage := if maxFecBlocks < sliceCount D (packetCount q packet.data.length) then 0 else fec
          blocksize := q + 32
          payload := spaced q header packet
          blocks := slices
            (sliceCount (blockCount D (packetCount q packet.data.length)) (packetCount q packet.data.length) *
              (q + 32)) (spaced q header packet) } := by
  have hle : 71 * (q + 32) ≤ D * (q + 32) := Nat.mul_le_mul_right _ hD
  rw [packetize, spacePayload_eq hq (by omega) hheader, ← makeBlocks_eq hq hmax hD hint]
  rfl

/-- A frame is only split when the sizes work out. -/
theorem packetize_inv {packetsize : ℤ} {frame : FecFrame} (hfec : 1 ≤ fec ∧ fec ≤ 255)
    (h : packetize packetsize fec packet = some frame) :
    ∃ q D : ℕ, packetsize = q + 16 ∧ 0 < q ∧ maxDataShards fec = some (D : ℤ) ∧ 71 ≤ D ∧
      (D : ℤ) * (100 + fec) ≤ 25500 ∧ D * (q + 32) < 2 ^ 31 ∧ ∃ header, frameHeader (q + 16) packet = some header := by
  obtain ⟨D, hmax, hD, hDfec⟩ := maxDataShards_eq hfec.1 hfec.2
  rw [packetize, Option.bind_eq_bind, Option.bind_eq_some_iff] at h
  obtain ⟨spaced, hspace, h⟩ := h
  simp only [makeBlocks, hmax, Option.bind_eq_bind, Option.bind_eq_some_iff, Option.some.injEq] at h
  obtain ⟨-, rfl, maxData, hdata, -⟩ := h
  obtain ⟨q, rfl, hq, hlt⟩ := spacePayload_inv hspace
  obtain ⟨header, hheader⟩ := frameHeader_eq hq packet
  rw [spacePayload_eq hq hlt hheader, Option.some.injEq] at hspace
  obtain ⟨⟨-, hdata⟩, -⟩ := of_ite_some hdata
  have hint : D * (q + 32) < 2 ^ 31 := by
    rw [← hspace] at hdata
    push_cast at hdata
    exact_mod_cast hdata
  exact ⟨q, D, rfl, hq, hmax, hD, hDfec, hint, header, hheader⟩

theorem sliceCount_block_le (hD : 0 < D) (hq : 0 < q)
    (hon : sliceCount D (packetCount q packet.data.length) ≤ maxFecBlocks)
    {block : Str} (hblock : block ∈ slices
      (sliceCount (blockCount D (packetCount q packet.data.length)) (packetCount q packet.data.length) * (q + 32))
      (spaced q header packet)) : sliceCount (q + 32) block.length ≤ D := by
  have hk := blockCount_pos hD hq packet.data.length
  have hle : packetCount q packet.data.length ≤ sliceCount D (packetCount q packet.data.length) * D :=
    le_sliceCount_mul hD _
  calc sliceCount (q + 32) block.length
      ≤ sliceCount (blockCount D (packetCount q packet.data.length)) (packetCount q packet.data.length) :=
        (sliceCount_le_iff (by omega)).mpr (length_le_of_mem_slices hblock)
    _ ≤ D := by
        rw [sliceCount_le_iff hk, Nat.mul_comm, blockCount, min_eq_right hon]
        exact hle

end Frame

end MidnightSun.Stream
