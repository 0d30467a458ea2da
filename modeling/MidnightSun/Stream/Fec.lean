import MidnightSun.Stream.Packetize
import MidnightSun.Rtsp.Announce

/-!
# Forward error correction (src/stream.cpp, `fec::encode`)

A block is cut into data shards, and parity shards are computed for a percentage of them, or for as many as the
client asks for at least.  The client learns the percentage from `fecInfo`.
-/

namespace MidnightSun.Stream

open Lib Util Rtsp

/-- `fec_t`; a shard is a list of bytes or, once its header is read, a packet. -/
structure Fec (σ : Type) where
  dataShards : ℕ
  nrShards : ℕ
  percentage : ℕ
  shards : List σ

/-- The data shards of a block: the last one is padded with zeros. -/
def dataShards (payload : Str) (blocksize : ℕ) : List Str :=
  let aligned := payload.length / blocksize
  let whole := (List.range aligned).map fun x => (payload.drop (x * blocksize)).take blocksize
  if payload.length % blocksize ≠ 0 then
    let next := payload.drop (aligned * blocksize)
    let copyLen := min blocksize next.length
    whole ++ [next.take copyLen ++ List.replicate (blocksize - copyLen) 0]
  else whole

/-- `(data_shards * fecpercentage + 99) / 100`, also the client's formula. -/
def parityShards (dataShards percentage : ℕ) : ℕ := (dataShards * percentage + 99) / 100

/-- `fec::encode`, given the data shards; `reedSolomon` makes as many parity shards as it is told. -/
def encode {σ : Type} (reedSolomon : List σ → ℕ → List σ) (data : List σ) (fecpercentage minparityshards : ℕ) :
    Option (Fec σ) := do
  let parity := parityShards data.length fecpercentage
  let (parity, percentage) ←
    -- the percentage is increased if the minimum is not met
    if parity < minparityshards ∧ fecpercentage ≠ 0 then do
      let percentage ← divSize (100 * minparityshards) data.length
      some (minparityshards, percentage)
    else some (parity, fecpercentage)
  some
    { dataShards := data.length
      nrShards := data.length + parity
      percentage := percentage
      shards := data ++ if percentage ≠ 0 then reedSolomon data parity else [] }

/-- The call of `fec::encode` for a block of bytes. -/
def encodeBlock (reedSolomon : List Str → ℕ → List Str) (blocksize : ℕ) (fecPercentage minRequiredFecPackets : ℤ)
    (block : Str) : Option (Fec Str) := do
  let fecpercentage ← toSize fecPercentage
  let minparityshards ← toSize minRequiredFecPackets
  encode reedSolomon (dataShards block blocksize) fecpercentage minparityshards

/-! ### `fecInfo` -/

/-- `(uint32_t) (x << 12 | data_shards << 22 | percentage << 4)`. -/
def fecInfo (x dataShards percentage : ℕ) : BitVec 32 :=
  BitVec.ofNat 32 (x <<< 12 ||| dataShards <<< 22 ||| percentage <<< 4)

/-- What the client reads: the shard index, the number of data shards and the percentage. -/
def readFecInfo (info : BitVec 32) : ℕ × ℕ × ℕ :=
  (info.toNat / 2 ^ 12 % 2 ^ 10, info.toNat / 2 ^ 22, info.toNat / 2 ^ 4 % 2 ^ 8)

lemma or_shiftLeft {a b i : ℕ} (h : b < 2 ^ i) : b ||| a <<< i = a * 2 ^ i + b := by
  rw [Nat.or_comm, ← Nat.shiftLeft_add_eq_or_of_lt h, Nat.shiftLeft_eq]

/-- Within their widths the three fields do not overlap. -/
theorem readFecInfo_fecInfo {x d p : ℕ} (hx : x < 2 ^ 10) (hd : d < 2 ^ 10) (hp : p < 2 ^ 8) :
    readFecInfo (fecInfo x d p) = (x, d, p) := by
  have h₁ : x <<< 12 ||| d <<< 22 = (d * 1024 + x) <<< 12 := by
    have hlt : x <<< 12 < 2 ^ 22 := by
      rw [Nat.shiftLeft_eq]
      omega
    rw [or_shiftLeft hlt, Nat.shiftLeft_eq, Nat.shiftLeft_eq]
    omega
  have h : x <<< 12 ||| d <<< 22 ||| p <<< 4 = d * 4194304 + x * 4096 + p * 16 := by
    have hlt : p <<< 4 < 2 ^ 12 := by
      rw [Nat.shiftLeft_eq]
      omega
    rw [h₁, Nat.or_comm, or_shiftLeft hlt, Nat.shiftLeft_eq]
    omega
  have hval : (fecInfo x d p).toNat = d * 4194304 + x * 4096 + p * 16 := by
    rw [fecInfo, h, BitVec.toNat_ofNat, Nat.mod_eq_of_lt (by omega)]
  have hx' : (fecInfo x d p).toNat / 2 ^ 12 % 2 ^ 10 = x := by omega
  have hd' : (fecInfo x d p).toNat / 2 ^ 22 = d := by omega
  have hp' : (fecInfo x d p).toNat / 2 ^ 4 % 2 ^ 8 = p := by omega
  rw [readFecInfo, hx', hd', hp']

/-! ### What the client computes -/

variable {σ : Type}

/-- The parameters tell the client the shards: there are at most 255, it computes the number of parity shards from
the percentage, and it reads all three fields of every shard's `fecInfo`. -/
def Fec.Announced (fec : Fec σ) : Prop :=
  fec.nrShards ≤ 255 ∧ parityShards fec.dataShards fec.percentage = fec.nrShards - fec.dataShards ∧
    fec.percentage < 2 ^ 8 ∧
      ∀ x < fec.nrShards,
        readFecInfo (fecInfo x fec.dataShards fec.percentage) = (x, fec.dataShards, fec.percentage)

/-- When the minimum that a client asks for leaves the parameters of a block true: the percentage gives as many parity
shards anyway, or the shards fit and the percentage that the minimum makes necessary has eight bits and was not rounded
down too far. -/
def MinimumAnnounced (dataShards fecPercentage : ℕ) (minRequired : ℤ) : Prop :=
  0 ≤ minRequired ∧
    (minRequired.toNat ≤ parityShards dataShards fecPercentage ∨
      dataShards + minRequired.toNat ≤ 255 ∧ 100 * minRequired.toNat < 256 * dataShards ∧
        100 * minRequired.toNat % dataShards < 100)

instance (d fecPercentage : ℕ) (minRequired : ℤ) : Decidable (MinimumAnnounced d fecPercentage minRequired) := by
  unfold MinimumAnnounced
  infer_instance

theorem parityShards_div (d parity : ℕ) : parityShards d (100 * parity / d) = parity ↔ 100 * parity % d < 100 := by
  have h := Nat.div_add_mod (100 * parity) d
  rw [parityShards, Nat.div_eq_iff (by decide)]
  constructor
  · rintro ⟨h₁, h₂⟩
    omega
  · intro hlt
    constructor <;> omega

/-- The parameters of a block with `parity` parity shards. -/
lemma announced_iff {r : Fec σ} {parity : ℕ} (hnr : r.nrShards = r.dataShards + parity) :
    r.Announced ↔ r.dataShards + parity ≤ 255 ∧ parityShards r.dataShards r.percentage = parity ∧
      r.percentage < 2 ^ 8 := by
  rw [Fec.Announced, hnr, Nat.add_sub_cancel_left]
  constructor
  · rintro ⟨h₁, h₂, h₃, -⟩
    exact ⟨h₁, h₂, h₃⟩
  · rintro ⟨h₁, h₂, h₃⟩
    refine ⟨h₁, h₂, h₃, ?_⟩
    intro x hx
    exact readFecInfo_fecInfo (by omega) (by omega) h₃

lemma encode_of_le (rs : List σ → ℕ → List σ) (data : List σ) (fec : ℕ) {min : ℕ}
    (h : min ≤ parityShards data.length fec) :
    ∃ r, encode rs data fec min = some r ∧ r.dataShards = data.length ∧
      r.nrShards = data.length + parityShards data.length fec ∧ r.percentage = fec ∧
      r.shards = data ++ if fec ≠ 0 then rs data (parityShards data.length fec) else [] := by
  rw [encode]
  simp only [if_neg (show ¬(parityShards data.length fec < min ∧ fec ≠ 0) by omega), Option.bind_eq_bind,
    Option.bind_some, Option.some.injEq, exists_eq_left', and_self]

lemma encode_of_lt (rs : List σ → ℕ → List σ) {data : List σ} {fec min : ℕ} (hfec : fec ≠ 0)
    (h : parityShards data.length fec < min) (hne : 0 < data.length) :
    ∃ r, encode rs data fec min = some r ∧ r.dataShards = data.length ∧ r.nrShards = data.length + min ∧
      r.percentage = 100 * min / data.length := by
  rw [encode]
  simp only [if_pos (And.intro h hfec), divSize_of_pos hne, Option.bind_eq_bind, Option.bind_some, Option.some.injEq,
    exists_eq_left', and_self]

/-- The parameters that `fec::encode` returns with FEC on are true exactly then. -/
theorem encode_announced_iff (rs : List σ → ℕ → List σ) (data : List σ) {fec : ℕ} (h₁ : 1 ≤ fec) (h₂ : fec ≤ 255)
    (min : ℕ) :
    (∃ r, encode rs data fec min = some r ∧ r.Announced) ↔
      data.length + parityShards data.length fec ≤ 255 ∧ MinimumAnnounced data.length fec min := by
  rw [MinimumAnnounced, Int.toNat_natCast]
  rcases Nat.lt_or_ge (parityShards data.length fec) min with hlt | hge
  · rcases Nat.eq_zero_or_pos data.length with h0 | hpos
    · -- a minimum for an empty block divides by zero
      have hnone : encode rs data fec min = none := by
        rw [encode]
        simp only [if_pos (And.intro hlt (show fec ≠ 0 by omega)), Option.bind_eq_bind, divSize, if_pos h0,
          Option.bind_none]
      rw [hnone]
      constructor
      · rintro ⟨r, hr, -⟩
        cases hr
      · rintro ⟨-, -, h | ⟨-, h, -⟩⟩ <;> omega
    · obtain ⟨r, hr, hdata, hnr, hpct⟩ := encode_of_lt rs (by omega) hlt hpos
      have hann := announced_iff (hdata ▸ hnr)
      rw [hdata, hpct, parityShards_div, Nat.div_lt_iff_lt_mul hpos] at hann
      constructor
      · rintro ⟨r', hr', hann'⟩
        obtain rfl : r = r' := Option.some.inj (hr.symm.trans hr')
        obtain ⟨ha, hb, hc⟩ := hann.mp hann'
        exact ⟨by omega, by omega, Or.inr ⟨ha, hc, hb⟩⟩
      · rintro ⟨-, -, h | ⟨ha, hc, hb⟩⟩
        · omega
        · exact ⟨r, hr, hann.mpr ⟨ha, hb, hc⟩⟩
  · obtain ⟨r, hr, hdata, hnr, hpct, -⟩ := encode_of_le rs _ _ hge
    have hann := announced_iff (hdata ▸ hnr)
    rw [hdata, hpct] at hann
    constructor
    · rintro ⟨r', hr', hann'⟩
      obtain rfl : r = r' := Option.some.inj (hr.symm.trans hr')
      exact ⟨(hann.mp hann').1, by omega, Or.inl hge⟩
    · rintro ⟨ha, -⟩
      exact ⟨r, hr, hann.mpr ⟨ha, rfl, by omega⟩⟩

/-! ### The blocks of a frame -/

@[simp] lemma length_dataShards {blocksize : ℕ} (hb : 0 < blocksize) (block : Str) :
    (dataShards block blocksize).length = sliceCount blocksize block.length := by
  rw [← div_add_ite_eq_sliceCount hb, dataShards]
  split_ifs <;> simp

lemma encodeBlock_announced_iff (rs : List Str → ℕ → List Str) {blocksize : ℕ} (hb : 0 < blocksize) {fec : ℤ}
    (h₁ : 1 ≤ fec) (h₂ : fec ≤ 255) (min : ℤ) (block : Str) :
    (∃ r, encodeBlock rs blocksize fec min block = some r ∧ r.Announced) ↔
      sliceCount blocksize block.length + parityShards (sliceCount blocksize block.length) fec.toNat ≤ 255 ∧
        MinimumAnnounced (sliceCount blocksize block.length) fec.toNat min := by
  rcases lt_or_ge min 0 with hmin | hmin
  · have hnone : toSize min = none := if_neg (by omega)
    constructor
    · rintro ⟨r, hr, -⟩
      simp only [encodeBlock, hnone, Option.bind_eq_bind, Option.bind_none, Option.bind_fun_none] at hr
      cases hr
    · rintro ⟨-, h, -⟩
      omega
  · have heq := encode_announced_iff rs (dataShards block blocksize) (show 1 ≤ fec.toNat by omega) (by omega) min.toNat
    rw [length_dataShards hb, Int.toNat_of_nonneg hmin] at heq
    rw [← heq, encodeBlock, toSize, if_pos (by omega), toSize, if_pos hmin]
    rfl

lemma add_parityShards_le {D d : ℕ} {fec : ℤ} (h₁ : 1 ≤ fec) (hD : (D : ℤ) * (100 + fec) ≤ 25500) (hd : d ≤ D) :
    d + parityShards d fec.toNat ≤ 255 := by
  have hle : (d : ℤ) * (100 + fec) ≤ D * (100 + fec) := Int.mul_le_mul_of_nonneg_right (by omega) (by omega)
  have hcast : (d : ℤ) * (100 + fec) = ((100 * d + d * fec.toNat : ℕ) : ℤ) := by
    rw [Int.natCast_add, Int.natCast_mul, Int.natCast_mul, Int.toNat_of_nonneg (by omega), Int.mul_add]
    omega
  rw [parityShards]
  omega

theorem packetize_block {packetsize fec : ℤ} (hfec : 1 ≤ fec ∧ fec ≤ 255) {packet : Packet} {frame : FecFrame}
    (hframe : packetize packetsize fec packet = some frame) (hon : frame.fecPercentage ≠ 0) :
    frame.fecPercentage = fec ∧ 0 < frame.blocksize ∧ ∀ block ∈ frame.blocks,
      sliceCount frame.blocksize block.length +
        parityShards (sliceCount frame.blocksize block.length) fec.toNat ≤ 255 := by
  obtain ⟨q, D, rfl, hq, hmax, hD, hDfec, hint, header, hheader⟩ := packetize_inv hfec hframe
  rw [packetize_eq hq hmax hD hint hheader, Option.some.injEq] at hframe
  subst hframe
  have hneeded : ¬maxFecBlocks < sliceCount D (packetCount q packet.data.length) := by
    intro hlt
    exact hon (if_pos hlt)
  refine ⟨if_neg hneeded, Nat.succ_pos _, ?_⟩
  intro block hblock
  exact add_parityShards_le hfec.1 hDfec (sliceCount_block_le (by omega) hq (Nat.not_lt.mp hneeded) hblock)

/-- The parameters of a block are announced truly exactly if the client's minimum allows it; for blocks that
`videoBroadcastThread` does not make also the number of shards must. -/
theorem fec_announced_iff (rs : List Str → ℕ → List Str) {fec : ℤ} (hfec : 1 ≤ fec ∧ fec ≤ 255)
    (minRequiredFecPackets : ℤ) :
    (∀ blocksize block, 0 < blocksize →
      ((∃ r, encodeBlock rs blocksize fec minRequiredFecPackets block = some r ∧ r.Announced) ↔
        sliceCount blocksize block.length + parityShards (sliceCount blocksize block.length) fec.toNat ≤ 255 ∧
          MinimumAnnounced (sliceCount blocksize block.length) fec.toNat minRequiredFecPackets)) ∧
      ∀ packetsize packet frame, packetize packetsize fec packet = some frame → frame.fecPercentage ≠ 0 →
        ∀ block ∈ frame.blocks,
          ((∃ r, encodeBlock rs frame.blocksize frame.fecPercentage minRequiredFecPackets block = some r ∧
              r.Announced) ↔
            MinimumAnnounced (sliceCount frame.blocksize block.length) fec.toNat minRequiredFecPackets) := by
  constructor
  · intro blocksize block hb
    exact encodeBlock_announced_iff rs hb hfec.1 hfec.2 minRequiredFecPackets block
  · intro packetsize packet frame hframe hon block hblock
    obtain ⟨hpct, hb, hle⟩ := packetize_block hfec hframe hon
    rw [hpct, encodeBlock_announced_iff rs hb hfec.1 hfec.2 minRequiredFecPackets block]
    exact and_iff_right (hle block hblock)

/-- A block of one packet and a minimum of two parity shards: the percentage is 200. -/
theorem fec_announced_two : ∃ r, encodeBlock (fun _ n => List.replicate n []) 1040 20 2 (List.replicate 40 0) = some r ∧
    r.Announced :=
  ((fec_announced_iff _ ⟨by decide, by decide⟩ 2).1 1040 (List.replicate 40 0) (by decide)).mpr (by decide)

/-- A frame of one packet, sent to a client that asks for three parity shards: the percentage 300 does not fit. -/
theorem fec_not_announced : cmdAnnounce plainEnv {} (.v4 0) carelessRequest = .accepted carelessConfig ∧
    ∃ packet frame block, packetize carelessConfig.packetsize plainEnv.fecPercentage packet = some frame ∧
      frame.fecPercentage ≠ 0 ∧ block ∈ frame.blocks ∧
      ¬∃ r, encodeBlock (fun _ n => List.replicate n []) frame.blocksize frame.fecPercentage
        carelessConfig.minRequiredFecPackets block = some r ∧ r.Announced := by
  refine ⟨careless_accepted, ⟨[], false, false, 1, 0, 0⟩,
    ⟨20, 1040, List.replicate 32 0 ++ [1, 0, 0, 1, 8, 0, 0, 0], [List.replicate 32 0 ++ [1, 0, 0, 1, 8, 0, 0, 0]]⟩,
    List.replicate 32 0 ++ [1, 0, 0, 1, 8, 0, 0, 0], by decide +kernel, by decide, List.mem_singleton.mpr rfl, ?_⟩
  rw [encodeBlock_announced_iff _ (by decide) (by decide) (by decide)]
  decide

end MidnightSun.Stream
