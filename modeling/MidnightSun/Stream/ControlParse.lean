import MidnightSun.Lib.View
import MidnightSun.Stream.Session

/-!
# Parsing control messages (src/stream.cpp, src/crypto.cpp)

The way of a received packet through `iterate`, `call` and the handlers again, now with each read of the packet and of
the decrypted message, and with the exceptions that malformed lengths lead to.  Allocations succeed.
-/

namespace MidnightSun.Stream

open Lib Rtsp

/-- The OpenSSL context of a `gcm_t`: decryption gives as many bytes as there were without the tag. -/
structure GcmContext where
  lib : Library
  /-- there is a context, or `init_decrypt_gcm` makes one -/
  init : Bool := true
  /-- `EVP_DecryptInit_ex` takes the vector -/
  setIv : Bool := true
  length_plaintext : ∀ key iv tagged plaintext,
    lib.gcmDecrypt key iv tagged = some plaintext → plaintext.length + 16 = tagged.length

/-- `crypto::cipher::tag_size`. -/
def tagSize : ℕ := 16

/-- `round_to_pkcs7_padded`, on `size_t`. -/
def roundToPkcs7Padded (size : ℕ) : ℕ := (size + 15) % 2 ^ 64 / 16 * 16

/-- `std::vector<std::uint8_t>::max_size()`. -/
def maxVectorSize : ℕ := 2 ^ 63 - 1

/-- A conversion to `size_t`. -/
def sizeT (x : ℤ) : ℕ := (x % 2 ^ 64).toNat

/-- The outcome of the calls of OpenSSL. -/
def GcmContext.opened (g : GcmContext) (key iv tagged : Str) : Bool × Str :=
  match g.lib.gcmDecrypt key iv tagged with
  | none => (false, [])
  | some plaintext => (true, plaintext)

/-- `gcm_t::decrypt`: whether it returns 0, and the plaintext.  `substr` and `resize` may throw; the conversion of the
size to `int` changes nothing, as it comes from an `int32_t` or a `uint16_t`. -/
def decrypt (g : GcmContext) (key iv : Str) (taggedCipher : View UInt8) : Except Fault (Bool × Str) :=
  if g.init = false then .ok (false, [])
  else if g.setIv = false then .ok (true, [])
  else if taggedCipher.size < tagSize then .error .exception
  else if maxVectorSize < roundToPkcs7Padded (taggedCipher.size - tagSize) then .error .exception
  else
    (taggedCipher.read tagSize (taggedCipher.size - tagSize)).bind fun cipher =>
      (taggedCipher.read 0 tagSize).bind fun tag => .ok (g.opened key iv (tag ++ cipher))

/-! ### The handlers -/

section Handlers

variable (g : GcmContext) (ss : EncryptionFlags) (s : Session)

/-- What the view is said to hold, for a handler that is given it. -/
def handled (type : PacketType) (payload : View UInt8) (decrypted : Bool) : Session × List Action :=
  (s, [.handle type (payload.slice 0 payload.size) decrypted])

/-- The handler of `IDX_LOSS_STATS`: `stats[0]`, `stats[1]` and `stats[3]`. -/
def parseLossStats (payload : View UInt8) (decrypted : Bool) : Except Fault (Session × List Action) :=
  (payload.read 0 4).bind fun _ =>
    (payload.read 4 4).bind fun _ =>
      (payload.read 12 4).bind fun _ => .ok (handled s .lossStats payload decrypted)

/-- The handler of `IDX_INVALIDATE_REF_FRAMES`: `frames[0]` and `frames[1]`. -/
def parseInvalidateRefFrames (payload : View UInt8) (decrypted : Bool) : Except Fault (Session × List Action) :=
  (payload.read 0 8).bind fun _ =>
    (payload.read 8 8).bind fun _ => .ok (handled s .invalidateRefFrames payload decrypted)

/-- `util::endian::big` of an `int32_t`. -/
def bigInt32 (bytes : Str) : ℤ := (BitVec.ofNat 32 (leValue bytes.reverse)).toInt

/-- The input handler after the decryption: the end of the payload is the next vector. -/
def takeInput (payload : View UInt8) (taggedCipherLength : ℕ) (r : Bool × Str) : Except Fault (Session × List Action) :=
  if r.1 = false then .ok (s, [.stop])
  else if tagSize + s.legacyInputEncIv.length ≤ taggedCipherLength then
    (payload.read (payload.size - tagSize) tagSize).bind fun iv =>
      .ok ({ s with legacyInputEncIv := iv }, [.handle .inputData r.2 false])
  else .ok (s, [.handle .inputData r.2 false])

/-- The handler of `IDX_INPUT_DATA`; a negative length becomes a very large one. -/
def parseInputData (payload : View UInt8) : Except Fault (Session × List Action) :=
  (payload.read 0 4).bind fun bytes =>
    let taggedCipherLength := sizeT (bigInt32 bytes)
    (decrypt g s.gcmKey s.legacyInputEncIv (payload.shift 4 taggedCipherLength)).bind
      (takeInput s payload taggedCipherLength)

/-- `call`, given the handler of `IDX_ENCRYPTED`.  A message of an unknown type is logged, byte for byte, if debug
messages are. -/
def parseCall (debug : Bool) (encrypted : View UInt8 → Except Fault (Session × List Action)) (type : ℕ)
    (payload : View UInt8) (reinjected : Bool) : Except Fault (Session × List Action) :=
  if dropsUnencrypted s type reinjected then .ok (s, [])
  else
    match packetType type with
    | none => if debug then payload.readAll.bind fun _ => .ok (s, []) else .ok (s, [])
    | some .encrypted => encrypted payload
    | some .lossStats => parseLossStats s payload reinjected
    | some .invalidateRefFrames => parseInvalidateRefFrames s payload reinjected
    | some .inputData => parseInputData g s payload
    | some type => .ok (handled s type payload reinjected)

/-- What the handler of `IDX_ENCRYPTED` does with the plaintext; `erase` needs the four bytes that it takes out. -/
def parsePlaintext (debug : Bool) (plaintext : Str) : Except Fault (Session × List Action) :=
  let message := View.whole plaintext
  (message.read 0 2).bind fun type =>
    if packetType (leValue type) = some .encrypted then .ok (s, [.stop])
    else if packetType (leValue type) = some .inputData then
      (message.read 4 (sizeT (plaintext.length - 4))).bind fun input => .ok (s, [.handle .inputData input true])
    else
      parseCall g s debug (fun _ => .ok (s, [.stop])) (leValue type)
        (message.shift 4 (sizeT (plaintext.length - 4))) true

/-- The handler of `IDX_ENCRYPTED`, whose header starts two bytes before the payload. -/
def parseEncrypted (debug : Bool) (payload : View UInt8) : Except Fault (Session × List Action) :=
  let header := payload.shift (-2) 8
  (header.read 2 2).bind fun length =>
    (header.read 4 4).bind fun seq =>
      if leValue length < 16 + 4 + 4 then .ok (s, [])
      else
        let taggedCipher := header.shift 8 (leValue length - 4)
        (decrypt g s.gcmKey (incomingIv ss s (BitVec.ofNat 32 (leValue seq))) taggedCipher).bind fun r =>
          if r.1 = false then .ok (s, [.stop]) else parsePlaintext g s debug r.2

/-- The branch of `iterate` for a received packet. -/
def parsePacket (debug : Bool) (packet : Str) : Except Fault (Session × List Action) :=
  let data := View.whole packet
  (data.read 0 2).bind fun type =>
    parseCall g s debug (parseEncrypted g ss s debug) (leValue type) (data.shift 2 (sizeT (packet.length - 2))) false

end Handlers

/-! ### Lengths that are right -/

section Lengths

variable (g : GcmContext) (ss : EncryptionFlags) (s : Session)

/-- Loss statistics and frames to invalidate are 16 bytes. -/
def LongEnough (type : Option PacketType) (length : ℕ) : Prop :=
  type = some .lossStats ∨ type = some .invalidateRefFrames → 16 ≤ length

/-- An input message holds its length and as much as this says, at least the tag. -/
def InputDataFits (packet : Str) : Prop :=
  let length := bigInt32 ((packet.drop 2).take 4)
  6 ≤ packet.length ∧
    (g.init = false ∨
      (g.setIv = true ∧ 16 ≤ length ∧ 6 + length ≤ packet.length) ∨
      (g.setIv = false ∧ (tagSize + s.legacyInputEncIv.length ≤ sizeT length → 16 ≤ packet.length)))

/-- An encrypted message holds its header and, unless it is too short for one, as much as this says; the decrypted
message holds what its type needs. -/
def EncryptedFits (packet : Str) : Prop :=
  let length := leValue ((packet.drop 2).take 2)
  let iv := incomingIv ss s (BitVec.ofNat 32 (leValue ((packet.drop 4).take 4)))
  8 ≤ packet.length ∧
    (length < 24 ∨ g.init = false ∨
      (g.setIv = true ∧ 4 + length ≤ packet.length ∧
        ∀ plaintext, g.lib.gcmDecrypt s.gcmKey iv ((packet.drop 8).take (length - 4)) = some plaintext →
          LongEnough (packetType (leValue (plaintext.take 2))) (plaintext.length - 4)))

/-- A packet holds its type and, if it is not dropped for this, what its type needs. -/
def PacketFits (packet : Str) : Prop :=
  let type := leValue (packet.take 2)
  2 ≤ packet.length ∧
    (dropsUnencrypted s type false = true ∨
      LongEnough (packetType type) (packet.length - 2) ∧
        (packetType type = some .inputData → InputDataFits g s packet) ∧
        (packetType type = some .encrypted → EncryptedFits g ss s packet))

end Lengths

/-! ### Which parses come to their end -/

section Returns

variable {α : Type} {g : GcmContext} {ss : EncryptionFlags} {s : Session} {buffer : Str} {offset size : ℕ}

/-- A decryption that does not fail early reads all of what it is given, which has a tag at least. -/
theorem returns_decrypt_bind_iff {key iv : Str} {f : Bool × Str → Except Fault α}
    (hsize : size < 2 ^ 62 ∨ 2 ^ 64 - 2 ^ 31 ≤ size ∧ size < 2 ^ 64) :
    Returns ((decrypt g key iv ⟨buffer, offset, size⟩).bind f) ↔
      (g.init = false ∧ Returns (f (false, []))) ∨
        (g.init = true ∧ g.setIv = false ∧ Returns (f (true, []))) ∨
        (g.init = true ∧ g.setIv = true ∧ 16 ≤ size ∧ size < 2 ^ 62 ∧ offset + size ≤ buffer.length ∧
          Returns (f (g.opened key iv ((buffer.drop offset).take size)))) := by
  have h16 : tagSize = 16 := rfl
  cases hinit : g.init with
  | false =>
    rw [decrypt, hinit, if_pos rfl]
    simp [Except.bind]
  | true =>
    cases hset : g.setIv with
    | false =>
      rw [decrypt, hinit, hset, if_neg (by decide), if_pos rfl]
      simp [Except.bind]
    | true =>
      rw [decrypt, hinit, hset, if_neg (by decide), if_neg (by decide)]
      by_cases hfits : 16 ≤ size ∧ size < 2 ^ 62 ∧ offset + size ≤ buffer.length
      · obtain ⟨htag, hmax, hle⟩ := hfits
        have hround : ¬maxVectorSize < roundToPkcs7Padded (size - tagSize) := by
          rw [roundToPkcs7Padded, maxVectorSize]
          omega
        have hcipher : View.Within ⟨buffer, offset, size⟩ tagSize (size - tagSize) := View.within_of_le (by omega)
        have hread : View.Within ⟨buffer, offset, size⟩ 0 tagSize := by
          right
          dsimp only
          omega
        have hsplit : (buffer.drop offset).take size =
            (buffer.drop offset).take tagSize ++ (buffer.drop (offset + tagSize)).take (size - tagSize) := by
          rw [← List.drop_drop, ← List.take_add, h16, Nat.add_sub_cancel' htag]
        rw [if_neg (by dsimp only; omega), if_neg hround, View.read_eq_ok hcipher]
        dsimp only [Except.bind]
        rw [View.read_eq_ok hread]
        dsimp only
        have hopened : g.opened key iv (View.slice ⟨buffer, offset, size⟩ 0 tagSize ++
            View.slice ⟨buffer, offset, size⟩ tagSize (size - tagSize)) =
            g.opened key iv ((buffer.drop offset).take size) := by
          rw [hsplit]
          rfl
        rw [hopened]
        constructor
        · intro h
          exact Or.inr (Or.inr ⟨rfl, rfl, htag, hmax, hle, h⟩)
        · rintro (⟨h, -⟩ | ⟨-, h, -⟩ | ⟨-, -, -, -, -, h⟩)
          · cases h
          · cases h
          · exact h
      · have hnot : ¬Returns (if size < tagSize then .error .exception
            else if maxVectorSize < roundToPkcs7Padded (size - tagSize) then .error .exception
            else (View.read ⟨buffer, offset, size⟩ tagSize (size - tagSize)).bind fun cipher =>
              (View.read ⟨buffer, offset, size⟩ 0 tagSize).bind fun tag => .ok (g.opened key iv (tag ++ cipher))) := by
          rw [returns_ite_error_iff, returns_ite_error_iff, View.returns_read_bind_iff, View.returns_read_bind_iff,
            View.Within, View.Within, roundToPkcs7Padded, maxVectorSize]
          rintro ⟨htag, hround, hcipher, hread, -⟩
          dsimp only at hcipher hread
          omega
        apply iff_of_false
        · rw [returns_bind_iff]
          rintro ⟨r, hr, -⟩
          exact hnot ⟨r, hr⟩
        · rintro (⟨h, -⟩ | ⟨-, h, -⟩ | ⟨-, -, htag, hmax, hle, -⟩)
          · cases h
          · cases h
          · exact hfits ⟨htag, hmax, hle⟩

lemma sizeT_sub {len k : ℕ} (hk : k ≤ len) (hlen : len < 2 ^ 64) : sizeT (len - k) = len - k := by
  rw [sizeT]
  omega

lemma returns_parseLossStats_iff {decrypted : Bool} :
    Returns (parseLossStats s ⟨buffer, offset, size⟩ decrypted) ↔ offset + 16 ≤ buffer.length := by
  rw [parseLossStats, View.returns_read_bind_iff, View.returns_read_bind_iff, View.returns_read_bind_iff,
    View.Within, View.Within, View.Within]
  dsimp only
  have hok := returns_ok (handled s .lossStats ⟨buffer, offset, size⟩ decrypted)
  constructor
  · rintro ⟨-, -, h, -⟩
    omega
  · intro h
    exact ⟨by omega, by omega, by omega, hok⟩

lemma returns_parseInvalidateRefFrames_iff {decrypted : Bool} :
    Returns (parseInvalidateRefFrames s ⟨buffer, offset, size⟩ decrypted) ↔ offset + 16 ≤ buffer.length := by
  rw [parseInvalidateRefFrames, View.returns_read_bind_iff, View.returns_read_bind_iff, View.Within, View.Within]
  dsimp only
  have hok := returns_ok (handled s .invalidateRefFrames ⟨buffer, offset, size⟩ decrypted)
  constructor
  · rintro ⟨-, h, -⟩
    omega
  · intro h
    exact ⟨by omega, by omega, hok⟩

/-- A message whose payload is the rest of its buffer. -/
lemma returns_parseCall_iff {debug reinjected : Bool} {encrypted : View UInt8 → Except Fault (Session × List Action)}
    {type : ℕ} (hsize : offset + size = buffer.length) :
    Returns (parseCall g s debug encrypted type ⟨buffer, offset, size⟩ reinjected) ↔
      dropsUnencrypted s type reinjected = true ∨
        LongEnough (packetType type) size ∧
          (packetType type = some .inputData → Returns (parseInputData g s ⟨buffer, offset, size⟩)) ∧
          (packetType type = some .encrypted → Returns (encrypted ⟨buffer, offset, size⟩)) := by
  rw [parseCall, returns_ite_iff (returns_ok _)]
  apply or_congr_right
  rcases htype : packetType type with _ | type
  · -- the whole payload is logged
    have hall : View.Within ⟨buffer, offset, size⟩ ((0 : ℕ) : ℤ) size := View.within_of_le (by omega)
    have hreturns : Returns
        (if debug then (View.readAll ⟨buffer, offset, size⟩).bind fun _ => .ok (s, ([] : List Action))
        else .ok (s, [])) := by
      cases debug with
      | false => exact returns_ok _
      | true => exact View.returns_read_bind_iff.mpr ⟨hall, returns_ok _⟩
    exact iff_of_true hreturns (by simp [LongEnough])
  · cases type with
    | lossStats =>
      apply returns_parseLossStats_iff.trans
      simp [LongEnough]
      omega
    | invalidateRefFrames =>
      apply returns_parseInvalidateRefFrames_iff.trans
      simp [LongEnough]
      omega
    | inputData => simp [LongEnough]
    | encrypted => simp [LongEnough]
    | startA => exact iff_of_true (returns_ok _) (by simp [LongEnough])
    | startB => exact iff_of_true (returns_ok _) (by simp [LongEnough])
    | periodicPing => exact iff_of_true (returns_ok _) (by simp [LongEnough])
    | requestIdrFrame => exact iff_of_true (returns_ok _) (by simp [LongEnough])

/-- The input handler, on the payload of a packet. -/
lemma returns_parseInputData_iff (hsize : 2 + size = buffer.length) :
    Returns (parseInputData g s ⟨buffer, 2, size⟩) ↔ InputDataFits g s buffer := by
  have h16 : tagSize = 16 := rfl
  have hprefix : View.Within ⟨buffer, 2, size⟩ 0 4 ↔ 6 ≤ buffer.length := by
    rw [View.Within]
    dsimp only
    omega
  have hslice : View.slice ⟨buffer, 2, size⟩ 0 4 = (buffer.drop 2).take 4 := rfl
  rw [parseInputData, View.returns_read_bind_iff, hprefix, hslice, InputDataFits]
  dsimp only
  generalize hlength : bigInt32 ((buffer.drop 2).take 4) = length
  have hmin : -2 ^ 31 ≤ length := hlength ▸ BitVec.le_toInt _
  have hmax : length < 2 ^ 31 := hlength ▸ BitVec.toInt_lt
  have hsizeT : sizeT length = (length % 2 ^ 64).toNat := rfl
  -- the end of the packet, where the next vector is
  have htake : ∀ plaintext, Returns (takeInput s ⟨buffer, 2, size⟩ (sizeT length) (true, plaintext)) ↔
      (tagSize + s.legacyInputEncIv.length ≤ sizeT length → 16 ≤ buffer.length) := by
    intro plaintext
    rw [takeInput, if_neg (by simp)]
    split_ifs with hcopy
    · rw [View.returns_read_bind_iff, View.Within]
      dsimp only
      have hok := returns_ok ({ s with legacyInputEncIv := View.slice ⟨buffer, 2, size⟩ (size - tagSize) tagSize },
        [Action.handle .inputData plaintext false])
      constructor
      · rintro ⟨h, -⟩ -
        omega
      · intro h
        have h' := h hcopy
        exact ⟨by omega, hok⟩
    · exact iff_of_true (returns_ok _) fun h => absurd h hcopy
  have hstop : Returns (takeInput s ⟨buffer, 2, size⟩ (sizeT length) (false, [])) := returns_ok _
  have hshift : View.shift ⟨buffer, 2, size⟩ 4 (sizeT length) = ⟨buffer, ((6 : ℕ) : ℤ), sizeT length⟩ := rfl
  rw [hshift, returns_decrypt_bind_iff (by omega), htake]
  apply and_congr_right
  intro hlen
  cases hinit : g.init with
  | false => simp [hstop]
  | true =>
    cases hset : g.setIv with
    | false => simp
    | true =>
      have hopened : ∀ tagged, 16 ≤ buffer.length →
          Returns (takeInput s ⟨buffer, 2, size⟩ (sizeT length) (g.opened s.gcmKey s.legacyInputEncIv tagged)) := by
        intro tagged hbuffer
        rw [GcmContext.opened]
        split
        · exact returns_ok _
        · exact (htake _).mpr fun _ => hbuffer
      simp only [Bool.true_eq_false, false_and, false_or, true_and, or_false]
      constructor
      · rintro ⟨htag, hmax', hle, -⟩
        exact ⟨by omega, by omega⟩
      · rintro ⟨htag, hle⟩
        exact ⟨by omega, by omega, by omega, hopened _ (by omega)⟩

/-- What is done with a plaintext that has a header. -/
lemma returns_parsePlaintext_iff {debug : Bool} {plaintext : Str} (hlen : 4 ≤ plaintext.length)
    (hmax : plaintext.length < 2 ^ 64) :
    Returns (parsePlaintext g s debug plaintext) ↔
      LongEnough (packetType (leValue (plaintext.take 2))) (plaintext.length - 4) := by
  have htype : View.Within (View.whole plaintext) 0 2 := by
    right
    dsimp only [View.whole]
    omega
  have hslice : (View.whole plaintext).slice 0 2 = plaintext.take 2 := rfl
  have hsize : sizeT (plaintext.length - 4) = plaintext.length - 4 := sizeT_sub hlen hmax
  rw [parsePlaintext, View.returns_read_bind_iff, hslice, and_iff_right htype, hsize]
  generalize leValue (plaintext.take 2) = type
  split_ifs with hencrypted hinput
  · exact iff_of_true (returns_ok _) (by simp [LongEnough, hencrypted])
  · have hrest : View.Within (View.whole plaintext) 4 (plaintext.length - 4) := by
      right
      dsimp only [View.whole]
      omega
    rw [View.returns_read_bind_iff]
    exact iff_of_true ⟨hrest, returns_ok _⟩ (by simp [LongEnough, hinput])
  · have hshift : View.shift (View.whole plaintext) 4 (plaintext.length - 4) =
        ⟨plaintext, ((4 : ℕ) : ℤ), plaintext.length - 4⟩ := rfl
    have hdrops : dropsUnencrypted s type true = false := by simp [dropsUnencrypted]
    rw [hshift, returns_parseCall_iff (by omega), hdrops]
    simp [hencrypted, hinput]

/-- The handler of an encrypted message, on the payload of a packet. -/
lemma returns_parseEncrypted_iff {debug : Bool} (hmax : buffer.length < 2 ^ 64) :
    Returns (parseEncrypted g ss s debug ⟨buffer, 2, size⟩) ↔ EncryptedFits g ss s buffer := by
  have hheader : View.shift ⟨buffer, 2, size⟩ (-2) 8 = ⟨buffer, 0, 8⟩ := rfl
  have hwithin : View.Within ⟨buffer, 0, 8⟩ 2 2 ∧ View.Within ⟨buffer, 0, 8⟩ 4 4 ↔ 8 ≤ buffer.length := by
    rw [View.Within, View.Within]
    dsimp only
    omega
  have hlength : View.slice ⟨buffer, 0, 8⟩ 2 2 = (buffer.drop 2).take 2 := rfl
  have hseq : View.slice ⟨buffer, 0, 8⟩ 4 4 = (buffer.drop 4).take 4 := rfl
  rw [parseEncrypted, hheader, View.returns_read_bind_iff, View.returns_read_bind_iff, ← and_assoc, hwithin, hlength,
    hseq, EncryptedFits]
  apply and_congr_right
  intro hlen
  dsimp only
  have hmaxLength : leValue ((buffer.drop 2).take 2) < 2 ^ 16 := by
    have hlt := leValue_lt ((buffer.drop 2).take 2)
    have hle : 256 ^ ((buffer.drop 2).take 2).length ≤ 256 ^ 2 :=
      Nat.pow_le_pow_right (by decide) (List.length_take_le _ _)
    omega
  generalize leValue ((buffer.drop 2).take 2) = length at *
  generalize incomingIv ss s (BitVec.ofNat 32 (leValue ((buffer.drop 4).take 4))) = iv
  have hshift : View.shift ⟨buffer, 0, 8⟩ 8 (length - 4) = ⟨buffer, ((8 : ℕ) : ℤ), length - 4⟩ := rfl
  rw [hshift, returns_ite_iff (returns_ok _), returns_decrypt_bind_iff (by omega)]
  apply or_congr_right'
  intro hrunt
  have hstop : Returns (if (false, ([] : Str)).1 = false then Except.ok (s, [Action.stop])
      else parsePlaintext g s debug (false, ([] : Str)).2) := returns_ok _
  -- without a vector there is no plaintext, and no type to read
  have hempty : ¬Returns (parsePlaintext g s debug []) := by
    rw [parsePlaintext, View.returns_read_bind_iff]
    rintro ⟨h, -⟩
    exact absurd h (by decide)
  have hopened : ∀ tagged, tagged.length = length - 4 →
      (Returns (if (g.opened s.gcmKey iv tagged).1 = false then Except.ok (s, [Action.stop])
        else parsePlaintext g s debug (g.opened s.gcmKey iv tagged).2) ↔
      ∀ plaintext, g.lib.gcmDecrypt s.gcmKey iv tagged = some plaintext →
        LongEnough (packetType (leValue (plaintext.take 2))) (plaintext.length - 4)) := by
    intro tagged htagged
    rw [GcmContext.opened]
    cases hdecrypt : g.lib.gcmDecrypt s.gcmKey iv tagged with
    | none =>
      refine iff_of_true (returns_ok _) ?_
      rintro plaintext ⟨⟩
    | some plaintext =>
      have hlength := g.length_plaintext _ _ _ _ hdecrypt
      dsimp only
      rw [if_neg (by simp), returns_parsePlaintext_iff (by omega) (by omega)]
      constructor
      · rintro h plaintext' heq
        cases heq
        exact h
      · intro h
        exact h plaintext rfl
  cases hinit : g.init with
  | false => exact iff_of_true (Or.inl ⟨rfl, hstop⟩) (Or.inl rfl)
  | true =>
    cases hset : g.setIv with
    | false => simp [hempty]
    | true =>
      simp only [Bool.true_eq_false, false_and, false_or, true_and]
      constructor
      · rintro ⟨-, -, hle, h⟩
        refine ⟨by omega, (hopened _ ?_).mp h⟩
        rw [List.length_take, List.length_drop]
        omega
      · rintro ⟨hle, h⟩
        refine ⟨by omega, by omega, by omega, (hopened _ ?_).mpr h⟩
        rw [List.length_take, List.length_drop]
        omega

/-- **A packet is parsed within its bytes, and without an exception, exactly when its lengths fit.** -/
theorem returns_parsePacket_iff (g : GcmContext) (ss : EncryptionFlags) (s : Session) (debug : Bool) {packet : Str}
    (hmax : packet.length < 2 ^ 64) : Returns (parsePacket g ss s debug packet) ↔ PacketFits g ss s packet := by
  have htype : View.Within (View.whole packet) 0 2 ↔ 2 ≤ packet.length := by
    rw [View.Within, View.whole]
    dsimp only
    omega
  have hslice : (View.whole packet).slice 0 2 = packet.take 2 := rfl
  rw [parsePacket, View.returns_read_bind_iff, htype, hslice, PacketFits]
  apply and_congr_right
  intro hlen
  have hsize : sizeT (packet.length - 2) = packet.length - 2 := sizeT_sub hlen hmax
  have hshift : View.shift (View.whole packet) 2 (packet.length - 2) = ⟨packet, ((2 : ℕ) : ℤ), packet.length - 2⟩ := rfl
  rw [hsize, hshift, returns_parseCall_iff (by omega)]
  have hinput := returns_parseInputData_iff (g := g) (s := s) (show 2 + (packet.length - 2) = packet.length by omega)
  have hencrypted : Returns (parseEncrypted g ss s debug ⟨packet, 2, packet.length - 2⟩) ↔
    EncryptedFits g ss s packet :=
    returns_parseEncrypted_iff hmax
  exact or_congr_right (and_congr_right fun _ =>
    and_congr (imp_congr_right fun _ => hinput) (imp_congr_right fun _ => hencrypted))

end Returns

/-! ### What a parse gives -/

section Results

variable {g : GcmContext} {ss : EncryptionFlags} {s : Session} {r : Session × List Action}

lemma eq_opened_of_decrypt {key iv buffer : Str} {offset size : ℕ} (hinit : g.init = true) (hset : g.setIv = true)
    {r : Bool × Str} (h : decrypt g key iv ⟨buffer, offset, size⟩ = .ok r) :
    r = g.opened key iv ((buffer.drop offset).take size) := by
  have h16 : tagSize = 16 := rfl
  rw [decrypt, hinit, hset, if_neg (by decide), if_neg (by decide)] at h
  split_ifs at h with htag hround
  obtain ⟨cipher, hcipher, h⟩ := bind_eq_ok_iff.mp h
  obtain ⟨tag, htag', h⟩ := bind_eq_ok_iff.mp h
  obtain rfl := View.eq_slice_of_read hcipher
  obtain rfl := View.eq_slice_of_read htag'
  have hsplit : (buffer.drop offset).take size =
      (buffer.drop offset).take tagSize ++ (buffer.drop (offset + tagSize)).take (size - tagSize) := by
    rw [← List.drop_drop, ← List.take_add, Nat.add_sub_cancel' (not_lt.mp htag)]
  rw [hsplit]
  cases h
  rfl

lemma slice_rest {buffer : Str} {offset size : ℕ} (hsize : offset + size = buffer.length) :
    View.slice ⟨buffer, offset, size⟩ 0 size = buffer.drop offset := by
  show (buffer.drop offset).take size = _
  rw [List.take_of_length_le]
  rw [List.length_drop]
  omega

lemma handled_of_bind {kind : PacketType} {v : View UInt8} {decrypted : Bool} {x : Except Fault Str}
    (h : (x.bind fun _ => .ok (handled s kind v decrypted)) = .ok r) : r = handled s kind v decrypted := by
  obtain ⟨-, -, h⟩ := bind_eq_ok_iff.mp h
  cases h
  rfl

/-- The input handler does what it does without the checks. -/
lemma eq_of_parseInputData {packet : Str} (hinit : g.init = true) (hset : g.setIv = true) (hlen : 2 ≤ packet.length)
    (h : parseInputData g s ⟨packet, 2, packet.length - 2⟩ = .ok r) :
    r = handleInputData g.lib s (packet.drop 2) := by
  have hsize : 2 + (packet.length - 2) = packet.length := by omega
  obtain ⟨hlen6, hfits⟩ := (returns_parseInputData_iff hsize).mp ⟨r, h⟩
  rw [hinit, hset] at hfits
  simp only [Bool.true_eq_false, false_and, false_or, true_and, or_false] at hfits
  -- the length is not negative, so that it is the number that was read
  have hmaxLength : leValue ((packet.drop 2).take 4).reverse < 2 ^ 32 := by
    have hlt := leValue_lt ((packet.drop 2).take 4).reverse
    have hle : 256 ^ ((packet.drop 2).take 4).reverse.length ≤ 256 ^ 4 := by
      apply Nat.pow_le_pow_right (by decide)
      rw [List.length_reverse]
      exact List.length_take_le _ _
    omega
  have hlength : sizeT (bigInt32 ((packet.drop 2).take 4)) = leValue ((packet.drop 2).take 4).reverse := by
    have hpos := hfits.1
    rw [bigInt32, BitVec.toInt_eq_toNat_cond, BitVec.toNat_ofNat, Nat.mod_eq_of_lt hmaxLength] at hpos ⊢
    rw [sizeT]
    split_ifs at hpos ⊢ <;> omega
  rw [parseInputData] at h
  obtain ⟨bytes, hbytes, h⟩ := bind_eq_ok_iff.mp h
  obtain rfl := View.eq_slice_of_read hbytes
  have hslice : View.slice ⟨packet, 2, packet.length - 2⟩ 0 4 = (packet.drop 2).take 4 := rfl
  rw [hslice, hlength] at h
  rw [handleInputData, List.drop_drop]
  dsimp only at h ⊢
  generalize leValue ((packet.drop 2).take 4).reverse = length at *
  have hshift : View.shift ⟨packet, 2, packet.length - 2⟩ 4 length = ⟨packet, ((6 : ℕ) : ℤ), length⟩ := rfl
  rw [hshift] at h
  obtain ⟨r', hr', h⟩ := bind_eq_ok_iff.mp h
  obtain rfl := eq_opened_of_decrypt hinit hset hr'
  rw [takeInput, GcmContext.opened] at h
  cases hdecrypt : g.lib.gcmDecrypt s.gcmKey s.legacyInputEncIv ((packet.drop (2 + 4)).take length) with
  | none =>
    rw [hdecrypt] at h
    cases h
    rfl
  | some plaintext =>
    rw [hdecrypt] at h
    dsimp only at h ⊢
    rw [if_neg (by simp)] at h
    by_cases hcopy : tagSize + s.legacyInputEncIv.length ≤ length
    · rw [if_pos hcopy] at h
      obtain ⟨iv, hiv, h⟩ := bind_eq_ok_iff.mp h
      obtain rfl := View.eq_slice_of_read hiv
      cases h
      have hend : View.slice ⟨packet, 2, packet.length - 2⟩ ((packet.length - 2 : ℕ) - tagSize) tagSize =
          (packet.drop 2).drop ((packet.drop 2).length - 16) := by
        have h16 : tagSize = 16 := rfl
        have hpos : ((2 : ℤ) + ((packet.length - 2 : ℕ) - tagSize)).toNat = 2 + ((packet.drop 2).length - 16) := by
          rw [List.length_drop]
          omega
        rw [View.slice, hpos, List.drop_drop]
        apply List.take_of_length_le
        rw [List.length_drop, List.length_drop]
        dsimp only
        omega
      rw [hend, if_pos (show 16 + s.legacyInputEncIv.length ≤ length from hcopy)]
    · rw [if_neg hcopy] at h
      cases h
      rw [if_neg (show ¬16 + s.legacyInputEncIv.length ≤ length from hcopy)]

/-- A message whose payload is the rest of its buffer. -/
lemma eq_of_parseCall {debug reinjected : Bool} {encrypted : View UInt8 → Except Fault (Session × List Action)}
    {type : ℕ} {buffer : Str} {offset size : ℕ} (hsize : offset + size = buffer.length)
    (hdrops : dropsUnencrypted s type reinjected = false)
    (h : parseCall g s debug encrypted type ⟨buffer, offset, size⟩ reinjected = .ok r) :
    match packetType type with
    | none => r = (s, [])
    | some .encrypted => encrypted ⟨buffer, offset, size⟩ = .ok r
    | some .inputData => parseInputData g s ⟨buffer, offset, size⟩ = .ok r
    | some kind => r = (s, [.handle kind (buffer.drop offset) reinjected]) := by
  have hhandled : ∀ kind, handled s kind ⟨buffer, offset, size⟩ reinjected =
      (s, [.handle kind (buffer.drop offset) reinjected]) := by
    intro kind
    rw [handled, slice_rest hsize]
  rw [parseCall, hdrops, if_neg (by decide)] at h
  generalize packetType type = found at h ⊢
  rcases found with _ | kind
  · cases debug with
    | false =>
      cases h
      rfl
    | true =>
      obtain ⟨-, -, h⟩ := bind_eq_ok_iff.mp h
      cases h
      rfl
  · cases kind with
    | encrypted => exact h
    | inputData => exact h
    | lossStats =>
      obtain ⟨-, -, h⟩ := bind_eq_ok_iff.mp h
      obtain ⟨-, -, h⟩ := bind_eq_ok_iff.mp h
      exact (handled_of_bind h).trans (hhandled _)
    | invalidateRefFrames =>
      obtain ⟨-, -, h⟩ := bind_eq_ok_iff.mp h
      exact (handled_of_bind h).trans (hhandled _)
    | startA =>
      cases h
      exact hhandled _
    | startB =>
      cases h
      exact hhandled _
    | periodicPing =>
      cases h
      exact hhandled _
    | requestIdrFrame =>
      cases h
      exact hhandled _

/-- What is done with a plaintext. -/
lemma eq_of_parsePlaintext {debug : Bool} {plaintext : Str} (hlen : 4 ≤ plaintext.length)
    (hmax : plaintext.length < 2 ^ 64) (h : parsePlaintext g s debug plaintext = .ok r) :
    r = (s, callDecrypted plaintext) := by
  have hsize : sizeT (plaintext.length - 4) = plaintext.length - 4 := sizeT_sub hlen hmax
  have hrest : 4 + (plaintext.length - 4) = plaintext.length := by omega
  rw [parsePlaintext] at h
  obtain ⟨type, htype, h⟩ := bind_eq_ok_iff.mp h
  obtain rfl := View.eq_slice_of_read htype
  have hslice : (View.whole plaintext).slice 0 2 = plaintext.take 2 := rfl
  rw [hslice, hsize] at h
  rw [callDecrypted]
  generalize leValue (plaintext.take 2) = type at *
  have hdrops : dropsUnencrypted s type true = false := by simp [dropsUnencrypted]
  split_ifs at h with hencrypted hinput
  · cases h
    rw [hencrypted]
  · obtain ⟨input, hread, h⟩ := bind_eq_ok_iff.mp h
    obtain rfl := View.eq_slice_of_read hread
    cases h
    have hinput' : (View.whole plaintext).slice 4 (plaintext.length - 4) = plaintext.drop 4 := slice_rest hrest
    rw [hinput, hinput']
  · have hcall := eq_of_parseCall hrest hdrops h
    rcases hkind : packetType type with _ | kind
    · rw [hkind] at hcall
      exact hcall
    · rw [hkind] at hcall hencrypted hinput
      cases kind with
      | encrypted => exact absurd rfl hencrypted
      | inputData => exact absurd rfl hinput
      | lossStats => exact hcall
      | invalidateRefFrames => exact hcall
      | startA => exact hcall
      | startB => exact hcall
      | periodicPing => exact hcall
      | requestIdrFrame => exact hcall

lemma eq_of_parseEncrypted {debug : Bool} {packet : Str} (hinit : g.init = true) (hset : g.setIv = true)
    (hmax : packet.length < 2 ^ 64) (h : parseEncrypted g ss s debug ⟨packet, 2, packet.length - 2⟩ = .ok r) :
    r = (s, handleEncrypted g.lib ss s (packet.drop 2)) := by
  obtain ⟨hlen, hfits⟩ := (returns_parseEncrypted_iff hmax).mp ⟨r, h⟩
  rw [parseEncrypted] at h
  obtain ⟨length, hlength, h⟩ := bind_eq_ok_iff.mp h
  obtain ⟨seq, hseq, h⟩ := bind_eq_ok_iff.mp h
  obtain rfl := View.eq_slice_of_read hlength
  obtain rfl := View.eq_slice_of_read hseq
  have hlength' : View.slice (View.shift ⟨packet, 2, packet.length - 2⟩ (-2) 8) 2 2 = (packet.drop 2).take 2 := rfl
  have hseq' : View.slice (View.shift ⟨packet, 2, packet.length - 2⟩ (-2) 8) 4 4 = (packet.drop 4).take 4 := rfl
  rw [hlength', hseq'] at h
  rw [handleEncrypted, List.drop_drop, List.drop_drop]
  dsimp only at h ⊢
  by_cases hrunt : leValue ((packet.drop 2).take 2) < 16 + 4 + 4
  · rw [if_pos hrunt] at h ⊢
    cases h
    rfl
  · rw [if_neg hrunt] at h ⊢
    obtain ⟨r', hr', h⟩ := bind_eq_ok_iff.mp h
    have hopened : r' = g.opened s.gcmKey (incomingIv ss s (BitVec.ofNat 32 (leValue ((packet.drop 4).take 4))))
        ((packet.drop 8).take (leValue ((packet.drop 2).take 2) - 4)) := eq_opened_of_decrypt hinit hset hr'
    rw [hopened, GcmContext.opened] at h
    cases hdecrypt : g.lib.gcmDecrypt s.gcmKey (incomingIv ss s (BitVec.ofNat 32 (leValue ((packet.drop 4).take 4))))
        ((packet.drop 8).take (leValue ((packet.drop 2).take 2) - 4)) with
    | none =>
      rw [hdecrypt] at h
      cases h
      rfl
    | some plaintext =>
      rw [hdecrypt] at h
      dsimp only at h ⊢
      rw [if_neg (by simp)] at h
      have hplaintext := g.length_plaintext _ _ _ _ hdecrypt
      rw [hinit, hset] at hfits
      obtain hshort | ⟨⟨⟩⟩ | ⟨-, hle, -⟩ := hfits
      · exact absurd hshort hrunt
      · rw [List.length_take, List.length_drop] at hplaintext
        exact eq_of_parsePlaintext (by omega) (by omega) h

/-- **What is parsed within its bytes is handled as it is without the checks.** -/
theorem parsePacket_eq_call (hinit : g.init = true) (hset : g.setIv = true) {debug : Bool} {packet : Str}
    (hmax : packet.length < 2 ^ 64) (h : parsePacket g ss s debug packet = .ok r) :
    r = call g.lib ss s (leValue (packet.take 2)) (packet.drop 2) := by
  obtain ⟨hlen, -⟩ := (returns_parsePacket_iff g ss s debug hmax).mp ⟨r, h⟩
  have hsize : sizeT (packet.length - 2) = packet.length - 2 := sizeT_sub hlen hmax
  have hrest : 2 + (packet.length - 2) = packet.length := by omega
  rw [parsePacket] at h
  obtain ⟨type, htype, h⟩ := bind_eq_ok_iff.mp h
  obtain rfl := View.eq_slice_of_read htype
  have hslice : (View.whole packet).slice 0 2 = packet.take 2 := rfl
  rw [hslice, hsize] at h
  rw [call]
  generalize leValue (packet.take 2) = type at *
  cases hdrops : dropsUnencrypted s type false with
  | true =>
    rw [parseCall, hdrops, if_pos rfl] at h
    cases h
    rfl
  | false =>
    have hcall := eq_of_parseCall hrest hdrops h
    rw [if_neg (by decide)]
    generalize packetType type = found at hcall ⊢
    rcases found with _ | kind
    · exact hcall
    · cases kind with
      | encrypted => exact eq_of_parseEncrypted hinit hset hmax hcall
      | inputData => exact eq_of_parseInputData hinit hset hlen hcall
      | lossStats => exact hcall
      | invalidateRefFrames => exact hcall
      | startA => exact hcall
      | startB => exact hcall
      | periodicPing => exact hcall
      | requestIdrFrame => exact hcall

end Results

/-! ### Packets of a client without encryption -/

/-- A context that takes every tag for the right one. -/
def plainContext : GcmContext where
  lib :=
    { gcmEncrypt := fun _ _ plaintext => some (List.replicate 16 0 ++ plaintext)
      gcmDecrypt := fun _ _ tagged => if 16 ≤ tagged.length then some (tagged.drop 16) else none
      cbcEncrypt := fun _ _ plaintext => some plaintext
      serializeRtspMessage := fun _ => [] }
  length_plaintext _ _ tagged plaintext h := by
    dsimp only at h
    obtain ⟨hle, heq⟩ := Option.ite_none_right_eq_some.mp h
    cases heq
    rw [List.length_drop]
    omega

def plainSession : Session :=
  alloc plainEnv.ss 0 (.v4 0) carelessConfig
    { gcmKey := List.replicate 16 0, iv := List.replicate 16 0, rtspCipher := false }

/-- Loss statistics: the type and four numbers. -/
def lossStatsPacket : Str := [1, 2] ++ List.replicate 16 0

theorem returns_lossStatsPacket :
    Returns (parsePacket plainContext plainEnv.ss plainSession false lossStatsPacket) ↔
      PacketFits plainContext plainEnv.ss plainSession lossStatsPacket :=
  returns_parsePacket_iff plainContext plainEnv.ss plainSession false (by decide)

/-- An input message that announces `-1` bytes. -/
def negativeLength : Str := [6, 2, 255, 255, 255, 255]

theorem negativeLength_throws :
    parsePacket plainContext plainEnv.ss plainSession false negativeLength = .error .exception ∧
      ¬Returns (parsePacket plainContext plainEnv.ss plainSession false negativeLength) := by
  have h : parsePacket plainContext plainEnv.ss plainSession false negativeLength = .error .exception := rfl
  exact ⟨h, h ▸ not_returns_error _⟩

end MidnightSun.Stream
