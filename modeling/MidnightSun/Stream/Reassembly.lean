import MidnightSun.Stream.Fec

/-!
# What the client gets back

The data shards of a frame's blocks, without their headers, are the frame header and the frame.
-/

namespace MidnightSun.Stream

open Lib Util

/-- A receiver of the data shards of all blocks in order: it drops the header of each and keeps `lastPayloadLen`
bytes of the last. -/
def receive (blocksize : ℕ) (lastPayloadLen : UInt16) (blocks : List Str) : Str :=
  let bodies := (blocks.flatMap fun b => dataShards b blocksize).map (List.drop videoPacketRawSize)
  bodies.dropLast.flatten ++ (bodies.getLast?.getD []).take lastPayloadLen.toNat

/-- The number of packets of a block. -/
def FecFrame.packets (frame : FecFrame) (block : Str) : ℕ := sliceCount frame.blocksize block.length

/-- A frame split as the protocol wants it, for a percentage that the host configured. -/
structure FecFrame.Split (frame : FecFrame) (fecPercentage : ℤ) : Prop where
  nonempty : frame.blocks ≠ []
  atMostFour : frame.blocks.length ≤ maxFecBlocks
  block_nonempty : ∀ b ∈ frame.blocks, b ≠ []
  nothing_lost : frame.blocks.flatten = frame.payload
  aligned : ∀ b ∈ frame.blocks.dropLast, frame.blocksize ∣ b.length
  on_or_off : frame.fecPercentage = fecPercentage ∨ frame.fecPercentage = 0
  fec_on : frame.fecPercentage ≠ 0 → ∀ b ∈ frame.blocks, frame.packets b ≤ 25500 / (100 + fecPercentage)
  fec_off : frame.fecPercentage = 0 → ∃ n, (∀ b ∈ frame.blocks.dropLast, frame.packets b = n) ∧
    ∀ b ∈ frame.blocks.getLast?, frame.packets b ≤ n ∧ n ≤ frame.packets b + 3

/-- The bytes of the header and the frame in the last packet, when each packet takes `q`. -/
def lastShare (q n : ℕ) : ℕ := if (n + 8) % q = 0 then q else (n + 8) % q

/-! ### The split -/

section Split

variable {q D : ℕ} {fec : ℤ} {packet : Packet} {header : ShortFrameHeader}

/-- The blocks of a frame are slices of whole packets. -/
theorem split_of_packetize (hfec : 1 ≤ fec) (hq : 0 < q) (hmax : maxDataShards fec = some (D : ℤ)) (hD : 71 ≤ D)
    (hint : D * (q + 32) < 2 ^ 31) (hheader : frameHeader (q + 16) packet = some header) {frame : FecFrame}
    (hframe : packetize (q + 16) fec packet = some frame) : frame.Split fec := by
  have hB : 0 < q + 32 := by omega
  have hE := packetCount_pos hq packet.data.length
  have hk := blockCount_pos (show 0 < D by omega) hq packet.data.length
  have hA := sliceCount_pos hk hE
  have hcount := sliceCount_blockCount hD hE
  rw [packetize_eq hq hmax hD hint hheader, Option.some.injEq] at hframe
  generalize hneeded : sliceCount D (packetCount q packet.data.length) = needed at hframe
  generalize hbc : blockCount D (packetCount q packet.data.length) = k at *
  generalize hEA : sliceCount k (packetCount q packet.data.length) = A at *
  have hblocks : sliceCount (A * (q + 32)) (spaced q header packet).length = k := by
    rw [sliceCount_mul_eq hA hB, sliceCount_spaced _ hq, hcount]
  have hpackets : ∀ b ∈ frame.blocks, frame.packets b = sliceCount (q + 32) b.length := by
    subst hframe
    intro b _
    rfl
  subst hframe
  refine ⟨?_, ?_, ?_, ?_, ?_, ?_, ?_, ?_⟩
  · rw [Ne, ← List.length_eq_zero_iff, length_slices, hblocks]
    omega
  · rw [length_slices, hblocks, ← hbc]
    exact blockCount_le _ _
  · intro b hb
    exact ne_nil_of_mem_slices (Nat.mul_pos hA hB) hb
  · exact flatten_slices (Nat.mul_pos hA hB) _
  · intro b hb
    rw [length_of_mem_dropLast_slices (Nat.mul_pos hA hB) hb]
    exact Nat.dvd_mul_left _ _
  · by_cases h : maxFecBlocks < needed
    · exact Or.inr (if_pos h)
    · exact Or.inl (if_neg h)
  · intro hon b hb
    have hle : needed ≤ maxFecBlocks := Nat.not_lt.mp fun h => hon (if_pos h)
    rw [eq_of_maxDataShards (by omega) hmax, hpackets b hb]
    subst hbc hEA hneeded
    exact_mod_cast sliceCount_block_le (by omega) hq hle hb
  · intro hoff
    have hlt : maxFecBlocks < needed := by
      by_contra h
      have hpct : fec = 0 := (if_neg h).symm.trans hoff
      omega
    have hk4 : k = 3 + 1 := by
      rw [← hbc, blockCount, hneeded, min_eq_left (Nat.le_of_lt hlt)]
      rfl
    refine ⟨A, ?_, ?_⟩
    · intro b hb
      rw [hpackets b (List.dropLast_subset _ hb), length_of_mem_dropLast_slices (Nat.mul_pos hA hB) hb,
        sliceCount_mul hB]
    · intro b hb
      have hlast := sliceCount_getLast_slices hB hA (hblocks.trans hk4) hb
      rw [sliceCount_spaced _ hq] at hlast
      obtain ⟨h₁, h₂⟩ := (sliceCount_eq_iff hk).mp hEA
      rw [hpackets b (List.mem_of_mem_getLast? hb)]
      subst hk4
      omega

end Split

/-! ### The data shards -/

/-- A shard padded to the size of the others. -/
def padded (blocksize : ℕ) (s : Str) : Str := s ++ List.replicate (blocksize - s.length) 0

lemma padded_of_length {blocksize : ℕ} {s : Str} (h : s.length = blocksize) : padded blocksize s = s := by
  rw [padded, h, Nat.sub_self, List.replicate_zero, List.append_nil]

/-- `fec::encode` cuts a block every `blocksize` bytes. -/
theorem dataShards_eq {blocksize : ℕ} (hb : 0 < blocksize) (block : Str) :
    dataShards block blocksize = (slices blocksize block).map (padded blocksize) := by
  have hwhole : (List.range (block.length / blocksize)).map
      (fun x => padded blocksize ((block.drop (x * blocksize)).take blocksize)) =
        (List.range (block.length / blocksize)).map fun x => (block.drop (x * blocksize)).take blocksize := by
    apply List.map_congr_left
    intro x hx
    apply padded_of_length
    have hx' := (Nat.le_div_iff_mul_le hb).mp (List.mem_range.mp hx)
    rw [Nat.succ_mul] at hx'
    rw [List.length_take, List.length_drop]
    omega
  rw [dataShards, slices, List.map_map, ← div_add_ite_eq_sliceCount hb]
  by_cases h : block.length % blocksize ≠ 0
  · rw [if_pos h, if_pos h, List.range_succ, List.map_append, Function.comp_def, hwhole, List.map_singleton, padded]
    have hle : (block.drop (block.length / blocksize * blocksize)).length ≤ blocksize := by
      have hdiv := Nat.div_add_mod block.length blocksize
      have hmod := Nat.mod_lt block.length hb
      rw [Nat.mul_comm] at hdiv
      rw [List.length_drop]
      omega
    simp only [List.take_of_length_le hle, Nat.min_eq_right hle, List.take_length]
  · rw [if_neg h, if_neg h, Nat.add_zero, Function.comp_def, hwhole]

/-! ### The receiver -/

section Receive

variable {q : ℕ} {packet : Packet} {header : ShortFrameHeader}

/-- The shards of a frame's blocks without their headers are the slices of header and frame, the last one padded. -/
lemma bodies_eq (hq : 0 < q) {blocks : List Str} (hflatten : blocks.flatten = spaced q header packet)
    (haligned : ∀ b ∈ blocks.dropLast, q + 32 ∣ b.length) :
    (blocks.flatMap fun b => dataShards b (q + 32)).map (List.drop videoPacketRawSize) =
      (slices q (header.bytes ++ packet.data)).map (padded q) := by
  have hshards : (blocks.flatMap fun b => dataShards b (q + 32)) =
      (blocks.flatMap (slices (q + 32))).map (padded (q + 32)) := by
    rw [List.map_flatMap]
    congr 1
    funext b
    exact dataShards_eq (by omega) b
  rw [hshards, flatMap_slices (by omega) haligned, hflatten, slices_spaced hq, List.map_map, List.map_map]
  apply List.map_congr_left
  intro s _
  have hpad : q + 32 - (32 + s.length) = q - s.length := by omega
  simp only [Function.comp_apply, padded, List.length_append, List.length_replicate, videoPacketRawSize, hpad,
    List.append_assoc]
  exact List.drop_left' (List.length_replicate ..)

/-- With the length of the last slice the receiver gets back what was cut. -/
lemma receive_slices (hq : 0 < q) {l : Str} (h : slices q l ≠ []) {len : ℕ}
    (hlen : len = ((slices q l).getLast h).length) :
    ((slices q l).map (padded q)).dropLast.flatten ++ (((slices q l).map (padded q)).getLast?.getD []).take len =
      l := by
  have hinit : ((slices q l).map (padded q)).dropLast = (slices q l).dropLast := by
    rw [← List.map_dropLast]
    conv_rhs => rw [← List.map_id (slices q l).dropLast]
    apply List.map_congr_left
    intro s hs
    exact padded_of_length (length_of_mem_dropLast_slices hq hs)
  have hlast : (((slices q l).map (padded q)).getLast?.getD []).take len = (slices q l).getLast h := by
    rw [List.getLast?_map, List.getLast?_eq_some_getLast h, Option.map_some, Option.getD_some, hlen, padded,
      List.take_left]
  calc _ = ((slices q l).dropLast ++ [(slices q l).getLast h]).flatten := by
        rw [hinit, hlast, List.flatten_append, List.flatten_singleton]
    _ = l := by rw [List.dropLast_append_getLast h, flatten_slices hq]

/-- The 16 bits of `lastPayloadLen` hold the share of the last packet, if it is not longer. -/
lemma lastPayloadLen_eq (hq : 0 < q) (hheader : frameHeader (q + 16) packet = some header)
    (hlast : lastShare q packet.data.length < 2 ^ 16) :
    header.lastPayloadLen.toNat = lastShare q packet.data.length := by
  have hroom : toSize ((q : ℤ) + 16 - nvVideoPacketSize) = some q := by
    rw [nvVideoPacketSize, Int.add_sub_cancel, toSize_natCast]
  simp only [frameHeader, lastPayloadLen, hroom, modSize_of_pos hq, Option.bind_eq_bind, Option.bind_some,
    Option.some.injEq] at hheader
  subst hheader
  show (if UInt16.ofNat ((packet.data.length + 8) % q) = 0 then UInt16.ofNat q
    else UInt16.ofNat ((packet.data.length + 8) % q)).toNat = lastShare q packet.data.length
  rw [lastShare] at hlast ⊢
  by_cases h0 : (packet.data.length + 8) % q = 0
  · rw [if_pos h0] at hlast ⊢
    have hlen : UInt16.ofNat 0 = 0 := rfl
    rw [h0, if_pos hlen, UInt16.toNat_ofNat', Nat.mod_eq_of_lt hlast]
  · rw [if_neg h0] at hlast ⊢
    have hlen : UInt16.ofNat ((packet.data.length + 8) % q) ≠ 0 := by
      rw [Ne, ← UInt16.toNat_inj, UInt16.toNat_ofNat', Nat.mod_eq_of_lt hlast]
      exact h0
    rw [if_neg hlen, UInt16.toNat_ofNat', Nat.mod_eq_of_lt hlast]

theorem receive_eq (hq : 0 < q) (hheader : frameHeader (q + 16) packet = some header)
    (hlast : lastShare q packet.data.length < 2 ^ 16) {blocks : List Str}
    (hflatten : blocks.flatten = spaced q header packet) (haligned : ∀ b ∈ blocks.dropLast, q + 32 ∣ b.length) :
    receive (q + 32) header.lastPayloadLen blocks = header.bytes ++ packet.data := by
  have hdata : (header.bytes ++ packet.data).length = packet.data.length + 8 := by
    rw [List.length_append, ShortFrameHeader.length_bytes, Nat.add_comm]
  have hne : slices q (header.bytes ++ packet.data) ≠ [] := by
    rw [← List.length_pos_iff, length_slices]
    exact sliceCount_pos hq (by omega)
  rw [receive, bodies_eq hq hflatten haligned]
  apply receive_slices hq hne
  rw [lastPayloadLen_eq hq hheader hlast, length_getLast_slices hq hne, hdata, lastShare]

end Receive

/-! ### Frames -/

/-- Every frame is split as the protocol wants it, as long as no `int` overflows. -/
theorem packetize_split {q : ℕ} (hq : 0 < q) {fec : ℤ} (hfec : 1 ≤ fec ∧ fec ≤ 255)
    (hint : 25500 / (100 + fec) * ((q : ℤ) + 16 + 16) < 2 ^ 31) (packet : Packet) :
    ∃ header frame, frameHeader (q + 16) packet = some header ∧ packetize (q + 16) fec packet = some frame ∧
      frame.blocksize = q + 32 ∧ frame.payload = spaced q header packet ∧ frame.Split fec := by
  obtain ⟨D, hmax, hD, -⟩ := maxDataShards_eq hfec.1 hfec.2
  obtain ⟨header, hheader⟩ := frameHeader_eq hq packet
  have hint' : D * (q + 32) < 2 ^ 31 := by
    rw [eq_of_maxDataShards (by omega) hmax] at hint
    have hcast : ((D * (q + 32) : ℕ) : ℤ) = D * ((q : ℤ) + 16 + 16) := by
      rw [Int.natCast_mul]
      congr 1
    omega
  have hframe := packetize_eq hq hmax hD hint' hheader
  exact ⟨header, _, hheader, hframe, rfl, rfl, split_of_packetize hfec.1 hq hmax hD hint' hheader hframe⟩

/-- The client gets back the header and the frame, if the share of the last packet fits into `lastPayloadLen`. -/
theorem frame_lossless {packetsize fec : ℤ} (hps : 16 < packetsize) (hfec : 1 ≤ fec ∧ fec ≤ 255)
    (hint : 25500 / (100 + fec) * (packetsize + 16) < 2 ^ 31) (packet : Packet) :
    ∃ header frame, frameHeader packetsize packet = some header ∧ packetize packetsize fec packet = some frame ∧
      (frame.blocksize : ℤ) = packetsize + 16 ∧
      concatAndInsert videoPacketRawSize (packetsize - 16).toNat header.bytes packet.data = some frame.payload ∧
      frame.Split fec ∧
      (lastShare (packetsize - 16).toNat packet.data.length < 2 ^ 16 →
        receive frame.blocksize header.lastPayloadLen frame.blocks = header.bytes ++ packet.data) := by
  obtain ⟨q, hq⟩ := Int.eq_ofNat_of_zero_le (show 0 ≤ packetsize - 16 by omega)
  obtain rfl : packetsize = q + 16 := by omega
  have hpos : 0 < q := by omega
  obtain ⟨header, frame, hheader, hframe, hblocksize, hpayload, hsplit⟩ := packetize_split hpos hfec hint packet
  have hroom : ((q : ℤ) + 16 - 16).toNat = q := by omega
  rw [hroom]
  refine ⟨header, frame, hheader, hframe, by omega, ?_, hsplit, ?_⟩
  · rw [hpayload]
    exact concatAndInsert_eq hpos _ _
  · intro hlast
    rw [hblocksize]
    exact receive_eq hpos hheader hlast (hsplit.nothing_lost.trans hpayload) (hblocksize ▸ hsplit.aligned)

theorem frame_lossless_three : ∃ header frame, frameHeader 1024 ⟨[7, 8, 9], true, false, 1, 0, 0⟩ = some header ∧
    packetize 1024 20 ⟨[7, 8, 9], true, false, 1, 0, 0⟩ = some frame ∧
    receive frame.blocksize header.lastPayloadLen frame.blocks = header.bytes ++ [7, 8, 9] := by
  obtain ⟨header, frame, hheader, hframe, -, -, -, hreceive⟩ :=
    frame_lossless (show (16 : ℤ) < 1024 by decide) (show (1 : ℤ) ≤ 20 ∧ (20 : ℤ) ≤ 255 by decide) (by decide)
      ⟨[7, 8, 9], true, false, 1, 0, 0⟩
  exact ⟨header, frame, hheader, hframe, hreceive (by decide)⟩

/-! ### Frames that the split does not suit -/

/-- The frame `n` zeros long. -/
def blankPacket (n : ℕ) : Packet := ⟨List.replicate n 0, false, false, 1, 0, 0⟩

/-- 285 packets without FEC: 72, 72, 72 and 69. -/
lemma blank_uneven : ∃ frame, packetize 17 255 (blankPacket 277) = some frame ∧ frame.fecPercentage = 0 ∧
    ∃ b₁ ∈ frame.blocks, ∃ b₂ ∈ frame.blocks, frame.packets b₂ + 3 = frame.packets b₁ := by
  obtain ⟨header, hheader⟩ := frameHeader_eq (q := 1) (by decide) (blankPacket 277)
  have hsize : (blankPacket 277).data.length = 277 := List.length_replicate ..
  have hE : packetCount 1 277 = 285 := by decide
  have hA : sliceCount (blockCount 71 285) 285 = 72 := by decide
  have hlen : (spaced 1 header (blankPacket 277)).length = 9405 := by
    rw [length_spaced _ _ (by decide), hsize, hE]
  have hframe := packetize_eq (q := 1) (by decide) (show maxDataShards 255 = some ((71 : ℕ) : ℤ) by decide) (by decide)
    (by decide) hheader
  rw [hsize, hE, hA] at hframe
  have hcount : sliceCount (72 * 33) (spaced 1 header (blankPacket 277)).length = 3 + 1 := by
    rw [hlen]
    decide
  have hoff : (if maxFecBlocks < sliceCount 71 285 then (0 : ℤ) else 255) = 0 := by decide
  refine ⟨_, hframe, hoff, ?_⟩
  show ∃ b₁ ∈ slices (72 * 33) (spaced 1 header (blankPacket 277)),
    ∃ b₂ ∈ slices (72 * 33) (spaced 1 header (blankPacket 277)), sliceCount 33 b₂.length + 3 = sliceCount 33 b₁.length
  obtain ⟨b₁, b₂, b₃, b₄, hl⟩ : ∃ b₁ b₂ b₃ b₄, slices (72 * 33) (spaced 1 header (blankPacket 277)) =
      [b₁, b₂, b₃, b₄] := by
    rw [← List.length_eq_four, length_slices, hcount]
  have h₁ : b₁.length = 72 * 33 :=
    length_of_mem_dropLast_slices (l := spaced 1 header (blankPacket 277)) (by decide) (by rw [hl]; simp)
  have h₄ := sliceCount_getLast_slices (q := 33) (a := 72) (b := b₄) (by decide) (by decide) hcount (by rw [hl]; rfl)
  have hall : sliceCount 33 9405 = 285 := by decide
  rw [hlen, hall] at h₄
  refine ⟨b₁, by rw [hl]; simp, b₄, by rw [hl]; simp, ?_⟩
  rw [h₁, sliceCount_mul (by decide)]
  omega

lemma receive_zero {q : ℕ} {packet : Packet} {header : ShortFrameHeader} (hq : 0 < q)
    (hlength : packet.data.length + 8 = q) (hzero : header.lastPayloadLen.toNat = 0) {blocks : List Str}
    (hflatten : blocks.flatten = spaced q header packet) (haligned : ∀ b ∈ blocks.dropLast, q + 32 ∣ b.length) :
    receive (q + 32) header.lastPayloadLen blocks = [] := by
  have hlen : (header.bytes ++ packet.data).length = q := by
    rw [List.length_append, ShortFrameHeader.length_bytes, Nat.add_comm, hlength]
  have hne : header.bytes ++ packet.data ≠ [] := by
    rw [← List.length_pos_iff, hlen]
    exact hq
  have hone : slices q (header.bytes ++ packet.data) = [header.bytes ++ packet.data] := by
    rw [slices_eq_cons hq hne, List.take_of_length_le (by omega), List.drop_of_length_le (by omega), slices_nil]
  rw [receive, bodies_eq hq hflatten haligned, hone, hzero, List.map_singleton, List.dropLast_singleton,
    List.flatten_nil, List.nil_append, List.take_zero]

/-- One packet with 65536 bytes of header and frame: `lastPayloadLen` is 0. -/
lemma blank_truncated : ∃ header frame, frameHeader 65552 (blankPacket 65528) = some header ∧
    packetize 65552 20 (blankPacket 65528) = some frame ∧
    receive frame.blocksize header.lastPayloadLen frame.blocks ≠ header.bytes ++ (blankPacket 65528).data := by
  have hsize : (blankPacket 65528).data.length = 65528 := List.length_replicate ..
  have hlen : lastPayloadLen 65552 65528 = some 0 := by decide
  obtain ⟨header, frame, hheader, hframe, hblocksize, hpayload, hsplit⟩ :=
    packetize_split (q := 65536) (by decide) (show (1 : ℤ) ≤ 20 ∧ (20 : ℤ) ≤ 255 by decide) (by decide)
      (blankPacket 65528)
  have hzero : header.lastPayloadLen.toNat = 0 := by
    rw [frameHeader, hsize] at hheader
    rw [show ((65536 : ℕ) : ℤ) + 16 = 65552 by decide, hlen] at hheader
    rw [← Option.some.inj hheader]
    rfl
  refine ⟨header, frame, hheader, hframe, ?_⟩
  rw [hblocksize, receive_zero (by decide) (by rw [hsize]) hzero (hsplit.nothing_lost.trans hpayload)
    (hblocksize ▸ hsplit.aligned)]
  intro h
  have hlength := congrArg List.length h
  rw [List.length_append, ShortFrameHeader.length_bytes, hsize] at hlength
  cases hlength

lemma blank_overflow (packet : Packet) : packetize (2 ^ 31 - 1) 20 packet = none := by
  rw [Option.eq_none_iff_forall_ne_some]
  intro frame hframe
  obtain ⟨q, D, hq, -, -, hD, -, hint, -⟩ := packetize_inv (by decide) hframe
  have hle : 71 * (q + 32) ≤ D * (q + 32) := Nat.mul_le_mul_right _ hD
  omega

/-- Not every frame is shared evenly, fits its length field or is split at all. -/
theorem frame_not_always_lossless :
    (∃ frame, packetize 17 255 (blankPacket 277) = some frame ∧ frame.fecPercentage = 0 ∧
      ∃ b₁ ∈ frame.blocks, ∃ b₂ ∈ frame.blocks, frame.packets b₂ + 3 = frame.packets b₁) ∧
    (∃ header frame, frameHeader 65552 (blankPacket 65528) = some header ∧
      packetize 65552 20 (blankPacket 65528) = some frame ∧
      receive frame.blocksize header.lastPayloadLen frame.blocks ≠ header.bytes ++ (blankPacket 65528).data) ∧
    packetize (2 ^ 31 - 1) 20 (blankPacket 0) = none :=
  ⟨blank_uneven, blank_truncated, blank_overflow _⟩

end MidnightSun.Stream
