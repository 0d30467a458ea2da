import Mathlib.Data.Nat.Bitwise
import MidnightSun.Crypto.Gcm
import MidnightSun.Lib.Buffer
import MidnightSun.Lib.Run
import MidnightSun.Rtsp.Framing
import MidnightSun.Stream.NonceUse

/-!
# Encrypted requests (src/rtsp.cpp, `socket_t`, `encrypted_rtsp_header_t`)

With a cipher, a request is one frame: a header of 24 bytes with the length and the sequence number in big-endian and
the authentication tag, and the encrypted text.  The socket reads the header, then the text, and decrypts it with the
vector that belongs to requests of the client.

* `serve_handled_iff`: which streams of bytes lead to a request, and to which;
* `requests_authentic`: whatever the network does, a request that is handled was encrypted by the client as such.
-/

namespace MidnightSun.Rtsp

open Lib Util

/-- `rtsp_cipher`: what `encrypt` puts into the tag and the text, and `decrypt`. -/
structure Cipher where
  encrypt : Str → Str → Str
  decrypt : Str → Str → Option Str

/-- The cipher adds a tag, and decryption inverts encryption. -/
structure Cipher.Lawful (cipher : Cipher) : Prop where
  length_encrypt : ∀ iv plaintext, (cipher.encrypt iv plaintext).length = Crypto.tagSize + plaintext.length
  decrypt_encrypt : ∀ iv plaintext, cipher.decrypt iv (cipher.encrypt iv plaintext) = some plaintext

/-! ### The header -/

/-- `sizeof(encrypted_rtsp_header_t)`. -/
def headerSize : ℕ := 24

def encryptedMessageTypeBit : BitVec 32 := 0x80000000

/-- `util::endian::big`, of a number and of bytes. -/
def bigEndian (x : BitVec 32) : Str := (leBytes 4 x.toNat).reverse

def readBig (bytes : Str) : BitVec 32 := BitVec.ofNat 32 (leValue bytes.reverse)

/-- `payload_length`. -/
def payloadLength (typeAndLength : BitVec 32) : ℕ := (typeAndLength &&& ~~~encryptedMessageTypeBit).toNat

/-- `is_encrypted`. -/
def isEncrypted (typeAndLength : BitVec 32) : Bool := typeAndLength &&& encryptedMessageTypeBit ≠ 0

/-- The frame of a text of this length; `tagged` is the tag and the encrypted text. -/
def frame (seq : BitVec 32) (length : ℕ) (tagged : Str) : Str :=
  bigEndian (encryptedMessageTypeBit + BitVec.ofNat 32 length) ++ bigEndian seq ++ tagged

/-! ### The socket -/

/-- The handler that the pending read will call; the read of a message is for this many bytes. -/
inductive SecureHandler where
  | header
  | message (payloadLength : ℕ)
  deriving DecidableEq

/-- A request that was given to `handle_data`. -/
structure Taken (Msg : Type) where
  seq : BitVec 32
  plaintext : Str
  req : Msg

/-- `socket_t`, with a cipher. -/
structure SecureSocket (Msg : Type) where
  msgBuf : Str
  begin : ℕ := 0
  pending : Option SecureHandler := none
  handled : List (Taken Msg) := []
  badRequest : Bool := false

namespace SecureSocket

variable {Msg : Type} (cipher : Cipher) (p : Parser Msg) (s : SecureSocket Msg)

/-- 400, and the socket is closed. -/
def refuse : SecureSocket Msg := { s with pending := none, badRequest := true }

def read : SecureSocket Msg :=
  if s.begin = msgBufSize ∨ msgBufSize ≤ s.begin + headerSize then s.refuse else { s with pending := some .header }

def typeAndLength : BitVec 32 := readBig (Buffer.read s.msgBuf s.begin 4)

def sequenceNumber : BitVec 32 := readBig (Buffer.read s.msgBuf (s.begin + 4) 4)

/-- The tag and the text, as many bytes as were read. -/
def tagged (bytes : ℕ) : Str := Buffer.read s.msgBuf (s.begin + 8) (Crypto.tagSize + bytes)

def handleReadEncryptedHeader (ec : Bool) (bytes : ℕ) : SecureSocket Msg :=
  if ec ∨ bytes < headerSize then s.refuse
  else if !isEncrypted s.typeAndLength then s.refuse
  else if msgBufSize ≤ s.begin + headerSize + payloadLength s.typeAndLength then s.refuse
  else { s with pending := some (.message (payloadLength s.typeAndLength)) }

/-- The vector of a request of the client. -/
def requestIv (seq : BitVec 32) : Str := Stream.sequenceIv seq "CR"

def handleReadEncryptedMessage (ec : Bool) (bytes : ℕ) : SecureSocket Msg :=
  if ec ∨ bytes < payloadLength s.typeAndLength then s.refuse
  else
    match cipher.decrypt (requestIv s.sequenceNumber) (s.tagged bytes) with
    | none => s.refuse
    | some plaintext =>
      match p.parse plaintext with
      | none => s.refuse
      | some req =>
        { s with handled := s.handled ++ [⟨s.sequenceNumber, plaintext, req⟩], pending := none }

/-- What is read goes into the buffer. -/
def put (offset : ℕ) (bytes : Str) : SecureSocket Msg := { s with msgBuf := Buffer.write s.msgBuf offset bytes }

/-- `async_read` completes, with an error or not. -/
def complete (ec : Bool) (bytes : Str) : SecureSocket Msg :=
  match s.pending with
  | none => s
  | some .header =>
    (s.put s.begin bytes).handleReadEncryptedHeader ec bytes.length
  | some (.message _) =>
    (s.put (s.begin + headerSize) bytes).handleReadEncryptedMessage cipher p ec bytes.length

/-- The bytes that the pending read is for. -/
def wants : ℕ :=
  match s.pending with
  | none => 0
  | some .header => headerSize
  | some (.message n) => n

/-- `async_read` from a stream that ends: all bytes it is for, or an error. -/
def readFrom (stream : Str) : SecureSocket Msg × Str :=
  (s.complete cipher p (decide (stream.length < s.wants)) (stream.take s.wants), stream.drop s.wants)

/-- The pending read stays within the buffer. -/
structure Within : Prop where
  header : s.pending = some .header → s.begin + headerSize < s.msgBuf.length
  message : ∀ n, s.pending = some (.message n) → s.begin + headerSize + n < s.msgBuf.length

end SecureSocket

/-- An accepted socket that reads a stream; its buffer holds anything. -/
def serveSecure {Msg : Type} (cipher : Cipher) (p : Parser Msg) (junk stream : Str) : SecureSocket Msg :=
  let r := ({ msgBuf := junk } : SecureSocket Msg).read.readFrom cipher p stream
  (r.1.readFrom cipher p r.2).1

/-! ### Reading a header back -/

@[simp] theorem length_bigEndian (x : BitVec 32) : (bigEndian x).length = 4 := by
  unfold bigEndian
  rw [List.length_reverse, length_leBytes]

theorem readBig_bigEndian (x : BitVec 32) : readBig (bigEndian x) = x := by
  unfold readBig bigEndian
  rw [List.reverse_reverse, leValue_leBytes]
  apply BitVec.eq_of_toNat_eq
  rw [BitVec.toNat_ofNat]
  have := x.isLt
  omega

theorem bigEndian_readBig {bytes : Str} (h : bytes.length = 4) : bigEndian (readBig bytes) = bytes := by
  unfold readBig bigEndian
  have hlt := leValue_lt bytes.reverse
  rw [List.length_reverse, h] at hlt
  have hback := leBytes_leValue bytes.reverse
  rw [List.length_reverse, h] at hback
  rw [BitVec.toNat_ofNat, Nat.mod_eq_of_lt (show leValue bytes.reverse < 2 ^ 32 from hlt), hback, List.reverse_reverse]

theorem payloadLength_eq (t : BitVec 32) : payloadLength t = t.toNat % 2 ^ 31 := by
  have hmask : (~~~encryptedMessageTypeBit).toNat = 2 ^ 31 - 1 := by decide
  unfold payloadLength
  rw [BitVec.toNat_and, hmask, Nat.and_two_pow_sub_one_eq_mod]

theorem isEncrypted_iff (t : BitVec 32) : isEncrypted t = true ↔ 2 ^ 31 ≤ t.toNat := by
  have hbit : encryptedMessageTypeBit.toNat = 2 ^ 31 := by decide
  have hlt := t.isLt
  -- the bit is set exactly in the upper half of the range
  have htest : t.toNat.testBit 31 = decide (2 ^ 31 ≤ t.toNat) := by
    rw [Nat.testBit_eq_decide_div_mod_eq]
    exact decide_eq_decide.mpr (by omega)
  unfold isEncrypted
  rw [decide_eq_true_iff, ne_eq, ← BitVec.toNat_inj, BitVec.toNat_and, hbit, Nat.and_two_pow, htest]
  cases hdec : decide (2 ^ 31 ≤ t.toNat) with
  | true =>
    have hge := of_decide_eq_true hdec
    exact ⟨fun _ => hge, fun _ hzero => absurd hzero (by decide)⟩
  | false =>
    have hnot := of_decide_eq_false hdec
    exact ⟨fun hne => absurd rfl hne, fun hge => absurd hge hnot⟩

theorem typeBit_add_toNat {n : ℕ} (h : n < 2 ^ 31) :
    (encryptedMessageTypeBit + BitVec.ofNat 32 n).toNat = 2 ^ 31 + n := by
  have hbit : encryptedMessageTypeBit.toNat = 2 ^ 31 := by decide
  rw [BitVec.toNat_add, BitVec.toNat_ofNat, hbit]
  omega

theorem eq_typeBit_add {t : BitVec 32} (h : isEncrypted t = true) :
    encryptedMessageTypeBit + BitVec.ofNat 32 (payloadLength t) = t := by
  have hge := (isEncrypted_iff t).mp h
  have hlt := t.isLt
  apply BitVec.eq_of_toNat_eq
  rw [payloadLength_eq, typeBit_add_toNat (Nat.mod_lt _ (by decide))]
  omega

/-! ### One stream -/

section Serve

variable {Msg : Type} {cipher : Cipher} {p : Parser Msg} {junk stream : Str}

/-- The fields of a header that is in the buffer. -/
theorem fields_of_write {s : SecureSocket Msg} {buffer bytes : Str} (hbuf : s.msgBuf = Buffer.write buffer 0 bytes)
    (hbegin : s.begin = 0) (hfits : bytes.length ≤ buffer.length) (h : headerSize ≤ bytes.length) :
    s.typeAndLength = readBig (bytes.take 4) ∧ s.sequenceNumber = readBig ((bytes.drop 4).take 4) ∧
      ∀ n, headerSize + n ≤ bytes.length → s.tagged n = (bytes.drop 8).take (Crypto.tagSize + n) := by
  have hread : ∀ position n, position + n ≤ bytes.length →
      Buffer.read s.msgBuf position n = (bytes.drop position).take n := by
    intro position n hn
    rw [hbuf]
    have hwithin : Buffer.read (Buffer.write buffer 0 bytes) (0 + position) n = (bytes.drop position).take n :=
      Buffer.read_write_within (by omega) hn
    rwa [Nat.zero_add] at hwithin
  have hsize : headerSize = 24 := rfl
  have htag : Crypto.tagSize = 16 := rfl
  unfold SecureSocket.typeAndLength SecureSocket.sequenceNumber SecureSocket.tagged
  rw [hbegin]
  refine ⟨?_, ?_, fun n hn => ?_⟩
  · rw [hread 0 4 (by omega), List.drop_zero]
  · rw [hread (0 + 4) 4 (by omega)]
  · rw [hread (0 + 8) _ (by omega)]

/-- A socket that has read a header into its buffer. -/
def headerRead (Msg : Type) (junk stream : Str) : SecureSocket Msg where
  msgBuf := Buffer.write junk 0 (stream.take headerSize)
  pending := some .header

theorem headerRead_typeAndLength (hjunk : junk.length = msgBufSize) (hlong : headerSize ≤ stream.length) :
    (headerRead Msg junk stream).typeAndLength = readBig (stream.take 4) := by
  have hsize : headerSize = 24 := rfl
  have hbuf : msgBufSize = 2048 := rfl
  have hlength : (stream.take headerSize).length = headerSize := by
    rw [List.length_take]
    omega
  have hfields := fields_of_write (s := headerRead Msg junk stream) rfl rfl (by omega) (by omega)
  rw [hfields.1, List.take_take, Nat.min_eq_left (by omega)]

/-- The first read: the socket goes on exactly if there is a header of an encrypted message that fits. -/
theorem readFrom_header (hjunk : junk.length = msgBufSize) :
    ({ msgBuf := junk } : SecureSocket Msg).read.readFrom cipher p stream =
      (if headerSize ≤ stream.length ∧ isEncrypted (readBig (stream.take 4)) = true ∧
          headerSize + payloadLength (readBig (stream.take 4)) < msgBufSize then
        { headerRead Msg junk stream with pending := some (.message (payloadLength (readBig (stream.take 4)))) }
      else (headerRead Msg junk stream).refuse, stream.drop headerSize) := by
  have hr : ({ msgBuf := junk } : SecureSocket Msg).read.readFrom cipher p stream =
      ((headerRead Msg junk stream).handleReadEncryptedHeader (decide (stream.length < headerSize))
        (stream.take headerSize).length, stream.drop headerSize) := rfl
  rw [hr]
  congr 1
  unfold SecureSocket.handleReadEncryptedHeader
  by_cases hshort : stream.length < headerSize
  · rw [if_pos (Or.inl (decide_eq_true hshort)), if_neg (by omega)]
  · have hlength : (stream.take headerSize).length = headerSize := by
      rw [List.length_take]
      omega
    have hbegin : (headerRead Msg junk stream).begin = 0 := rfl
    rw [if_neg (by rw [hlength, decide_eq_false hshort]; simp), headerRead_typeAndLength hjunk (by omega), hbegin]
    cases henc : isEncrypted (readBig (stream.take 4)) with
    | false => simp
    | true =>
      simp only [Bool.not_true, Bool.false_eq_true, if_false, true_and]
      by_cases hfits : headerSize + payloadLength (readBig (stream.take 4)) < msgBufSize
      · rw [if_neg (by omega), if_pos ⟨by omega, hfits⟩]
        rfl
      · rw [if_pos (by omega), if_neg (by omega)]

/-- The requests of a stream: none, or the one of the frame that it begins with. -/
theorem serve_handled (hjunk : junk.length = msgBufSize) : (serveSecure cipher p junk stream).handled =
    if headerSize ≤ stream.length ∧ isEncrypted (readBig (stream.take 4)) = true ∧
        headerSize + payloadLength (readBig (stream.take 4)) < msgBufSize ∧
        headerSize + payloadLength (readBig (stream.take 4)) ≤ stream.length then
      ((cipher.decrypt (SecureSocket.requestIv (readBig ((stream.drop 4).take 4)))
          ((stream.drop 8).take (Crypto.tagSize + payloadLength (readBig (stream.take 4))))).bind fun plaintext =>
        (p.parse plaintext).map fun req => ⟨readBig ((stream.drop 4).take 4), plaintext, req⟩).toList
    else [] := by
  have hsize : headerSize = 24 := rfl
  have hbuf : msgBufSize = 2048 := rfl
  have htag : Crypto.tagSize = 16 := rfl
  unfold serveSecure
  simp only [readFrom_header hjunk]
  generalize hn : payloadLength (readBig (stream.take 4)) = n
  by_cases hgo : headerSize ≤ stream.length ∧ isEncrypted (readBig (stream.take 4)) = true ∧ headerSize + n < msgBufSize
  · rw [if_pos hgo]
    have hread : ({ headerRead Msg junk stream with pending := some (.message n) } : SecureSocket Msg).readFrom cipher p
        (stream.drop headerSize) = (SecureSocket.handleReadEncryptedMessage cipher p
          { headerRead Msg junk stream with
            msgBuf := Buffer.write (headerRead Msg junk stream).msgBuf headerSize ((stream.drop headerSize).take n)
            pending := some (.message n) }
          (decide ((stream.drop headerSize).length < n)) ((stream.drop headerSize).take n).length,
        (stream.drop headerSize).drop n) := rfl
    have hdrop : (stream.drop headerSize).length = stream.length - headerSize := List.length_drop
    have hlength : (stream.take headerSize).length = headerSize := by
      rw [List.length_take]
      omega
    -- what is in the buffer is what came so far
    have hmsgBuf : Buffer.write (headerRead Msg junk stream).msgBuf headerSize ((stream.drop headerSize).take n) =
        Buffer.write junk 0 (stream.take (headerSize + n)) := by
      have hfits : 0 + (stream.take headerSize).length ≤ junk.length := by omega
      have htwo := @Buffer.write_write _ _ _ _ ((stream.drop headerSize).take n) hfits
      rw [Nat.zero_add, hlength] at htwo
      rw [List.take_add]
      exact htwo
    rw [hread, hmsgBuf]
    unfold SecureSocket.handleReadEncryptedMessage
    by_cases hshort : (stream.drop headerSize).length < n
    · rw [if_pos (Or.inl (decide_eq_true hshort)), if_neg (by omega)]
      rfl
    · have htake : ((stream.drop headerSize).take n).length = n := by
        rw [List.length_take]
        omega
      have hall : (stream.take (headerSize + n)).length = headerSize + n := by
        rw [List.length_take]
        omega
      let whole : SecureSocket Msg := { headerRead Msg junk stream with
        msgBuf := Buffer.write junk 0 (stream.take (headerSize + n))
        pending := some (.message n) }
      have hwhole : whole.msgBuf = Buffer.write junk 0 (stream.take (headerSize + n)) := rfl
      obtain ⟨ht, hseq, htagged⟩ := fields_of_write hwhole rfl (by omega) (by omega)
      rw [List.take_take, Nat.min_eq_left (by omega)] at ht
      rw [List.drop_take, List.take_take, Nat.min_eq_left (by omega)] at hseq
      have htagged := htagged n (by omega)
      rw [List.drop_take, List.take_take, Nat.min_eq_left (by omega)] at htagged
      rw [if_neg (by rw [ht, hn, htake, decide_eq_false hshort]; simp), if_pos ⟨hgo.1, hgo.2.1, hgo.2.2, by omega⟩, hseq,
        htake, htagged]
      cases cipher.decrypt (SecureSocket.requestIv (readBig ((stream.drop 4).take 4)))
          ((stream.drop 8).take (Crypto.tagSize + n)) with
      | none => rfl
      | some plaintext =>
        simp only [Option.bind_some]
        cases p.parse plaintext with
        | none => rfl
        | some req => rfl
  · rw [if_neg hgo, if_neg (fun h => hgo ⟨h.1, h.2.1, h.2.2.1⟩)]
    rfl

theorem fields_of_frame (seq : BitVec 32) (length : ℕ) (tagged rest : Str) :
    readBig ((frame seq length tagged ++ rest).take 4) = encryptedMessageTypeBit + BitVec.ofNat 32 length ∧
      readBig (((frame seq length tagged ++ rest).drop 4).take 4) = seq ∧
      (frame seq length tagged ++ rest).drop 8 = tagged ++ rest := by
  have h₁ := length_bigEndian (encryptedMessageTypeBit + BitVec.ofNat 32 length)
  have h₂ := length_bigEndian seq
  unfold frame
  rw [List.append_assoc, List.append_assoc]
  refine ⟨?_, ?_, ?_⟩
  · rw [List.take_left' h₁, readBig_bigEndian]
  · rw [List.drop_left' h₁, List.take_left' h₂, readBig_bigEndian]
  · rw [← List.append_assoc, List.drop_left' (by rw [List.length_append, h₁, h₂])]

/-- A stream that begins with an encrypted header and its text begins with a frame. -/
theorem eq_frame {n : ℕ} (hlong : headerSize + n ≤ stream.length) (henc : isEncrypted (readBig (stream.take 4)) = true)
    (hn : payloadLength (readBig (stream.take 4)) = n) :
    stream = frame (readBig ((stream.drop 4).take 4)) n ((stream.drop 8).take (Crypto.tagSize + n)) ++
      stream.drop (headerSize + n) := by
  have hsize : headerSize = 24 := rfl
  have htag : Crypto.tagSize = 16 := rfl
  have h₁ : (stream.take 4).length = 4 := by
    rw [List.length_take]
    omega
  have h₂ : ((stream.drop 4).take 4).length = 4 := by
    rw [List.length_take, List.length_drop]
    omega
  unfold frame
  rw [← hn, eq_typeBit_add henc, hn, bigEndian_readBig h₁, bigEndian_readBig h₂]
  calc stream = stream.take 8 ++ stream.drop 8 := (List.take_append_drop 8 stream).symm
    _ = (stream.take 4 ++ (stream.drop 4).take 4) ++
        ((stream.drop 8).take (Crypto.tagSize + n) ++ (stream.drop 8).drop (Crypto.tagSize + n)) := by
      rw [List.take_append_drop (Crypto.tagSize + n), ← List.take_add]
    _ = _ := by
      rw [List.drop_drop, ← List.append_assoc]
      congr 2
      omega

/-- **Encrypted framing.**  A request comes from a stream exactly if the stream begins with a frame that fits into the
buffer, whose text decrypts under the vector of its sequence number and parses; there is at most one.  So what a client
encrypts and frames is handled as it was, if it fits. -/
theorem serve_handled_iff (hcipher : cipher.Lawful) (hjunk : junk.length = msgBufSize) :
    (∀ stream r, (serveSecure cipher p junk stream).handled = [r] ↔ ∃ tagged rest,
      Crypto.tagSize ≤ tagged.length ∧ headerSize + (tagged.length - Crypto.tagSize) < msgBufSize ∧
        stream = frame r.seq (tagged.length - Crypto.tagSize) tagged ++ rest ∧
        cipher.decrypt (SecureSocket.requestIv r.seq) tagged = some r.plaintext ∧ p.parse r.plaintext = some r.req) ∧
      (∀ stream, (serveSecure cipher p junk stream).handled.length ≤ 1) ∧
      ∀ seq plaintext req rest, headerSize + plaintext.length < msgBufSize → p.parse plaintext = some req →
        (serveSecure cipher p junk
          (frame seq plaintext.length (cipher.encrypt (SecureSocket.requestIv seq) plaintext) ++ rest)).handled =
            [⟨seq, plaintext, req⟩] := by
  have hsize : headerSize = 24 := rfl
  have hbuf : msgBufSize = 2048 := rfl
  have htag : Crypto.tagSize = 16 := rfl
  have hiff : ∀ stream r, (serveSecure cipher p junk stream).handled = [r] ↔ ∃ tagged rest,
      Crypto.tagSize ≤ tagged.length ∧ headerSize + (tagged.length - Crypto.tagSize) < msgBufSize ∧
        stream = frame r.seq (tagged.length - Crypto.tagSize) tagged ++ rest ∧
        cipher.decrypt (SecureSocket.requestIv r.seq) tagged = some r.plaintext ∧
        p.parse r.plaintext = some r.req := by
    intro stream r
    rw [serve_handled hjunk]
    constructor
    · intro h
      split at h
      next hgo =>
        obtain ⟨hlong, henc, hfits, hall⟩ := hgo
        obtain ⟨plaintext, hdec, hreq⟩ := Option.bind_eq_some_iff.mp (Option.toList_eq_singleton_iff.mp h)
        obtain ⟨req, hparse, rfl⟩ := Option.map_eq_some_iff.mp hreq
        have hlength : ((stream.drop 8).take (Crypto.tagSize + payloadLength (readBig (stream.take 4)))).length =
            Crypto.tagSize + payloadLength (readBig (stream.take 4)) := by
          rw [List.length_take, List.length_drop]
          omega
        refine ⟨_, stream.drop (headerSize + payloadLength (readBig (stream.take 4))), by rw [hlength]; omega,
          by rw [hlength]; omega, ?_, hdec, hparse⟩
        rw [hlength, Nat.add_sub_cancel_left]
        exact eq_frame hall henc rfl
      next => cases h
    · rintro ⟨tagged, rest, htagged, hfits, rfl, hdec, hparse⟩
      obtain ⟨h₁, h₂, h₃⟩ := fields_of_frame r.seq (tagged.length - Crypto.tagSize) tagged rest
      have hlength : (frame r.seq (tagged.length - Crypto.tagSize) tagged ++ rest).length =
          8 + tagged.length + rest.length := by
        unfold frame
        simp only [List.length_append, length_bigEndian]
      have hn : payloadLength (encryptedMessageTypeBit + BitVec.ofNat 32 (tagged.length - Crypto.tagSize)) =
          tagged.length - Crypto.tagSize := by
        rw [payloadLength_eq, typeBit_add_toNat (by omega)]
        omega
      have henc : isEncrypted (encryptedMessageTypeBit + BitVec.ofNat 32 (tagged.length - Crypto.tagSize)) = true := by
        rw [isEncrypted_iff, typeBit_add_toNat (by omega)]
        omega
      rw [h₁, h₂, h₃, hn, if_pos ⟨by omega, henc, hfits, by omega⟩, List.take_left' (by omega), hdec]
      simp only [Option.bind_some, hparse, Option.map_some, Option.toList_some]
  refine ⟨hiff, fun stream => ?_, ?_⟩
  · rw [serve_handled hjunk]
    split
    · exact Option.length_toList_le
    · exact Nat.zero_le _
  · intro seq plaintext req rest hfits hparse
    have hlength := hcipher.length_encrypt (SecureSocket.requestIv seq) plaintext
    refine (hiff _ ⟨seq, plaintext, req⟩).mpr ⟨cipher.encrypt (SecureSocket.requestIv seq) plaintext, rest, by omega,
      by omega, ?_, hcipher.decrypt_encrypt _ _, hparse⟩
    rw [hlength, Nat.add_sub_cancel_left]

end Serve

/-! ### A session over an untrusted network -/

/-- The other uses of the key of a launch session: responses, control messages either way, old control messages, and
video shards. -/
inductive OtherUse where
  | response (counter : BitVec 32)
  | hostControl (seq : BitVec 32)
  | clientControl (seq : BitVec 32)
  | legacyControl (seq : BitVec 32)
  | video (counter : BitVec 64)

def OtherUse.iv : OtherUse → Str
  | .response counter => Stream.sequenceIv counter "HR"
  | .hostControl seq => Stream.sequenceIv seq "HC"
  | .clientControl seq => Stream.sequenceIv seq "CC"
  | .legacyControl seq => Stream.legacyIv seq
  | .video counter => Stream.videoIv counter

/-- The sockets of one launch session.  The network delivers what it likes. -/
structure Exchange (Msg : Type) where
  sockets : List (SecureSocket Msg) := []
  rtspIvCounter : BitVec 32 := 0
  /-- ghost: the requests that the client encrypted -/
  requests : List (BitVec 32 × Str) := []
  /-- ghost: all that was encrypted under the key, with its vector -/
  encrypted : List (Str × Str) := []

inductive ExchangeOp where
  /-- the client encrypts a request -/
  | request (seq : BitVec 32) (plaintext : Str)
  /-- another message is encrypted, by the host or the client -/
  | other (use : OtherUse) (plaintext : Str)
  /-- a connection is accepted; its buffer holds anything -/
  | accept (junk : Str)
  /-- the pending read of a socket completes; if the socket is done, this is the text of the response -/
  | complete (k : ℕ) (ec : Bool) (bytes response : Str)

namespace Exchange

variable {Msg : Type} (cipher : Cipher) (p : Parser Msg) (w : Exchange Msg)

/-- `respond`. -/
def respond (response : Str) : Exchange Msg :=
  { w with
    rtspIvCounter := w.rtspIvCounter + 1
    encrypted := w.encrypted ++ [((OtherUse.response (w.rtspIvCounter + 1)).iv, response)] }

def step : ExchangeOp → Option (Exchange Msg)
  | .request seq plaintext =>
    some { w with
      requests := w.requests ++ [(seq, plaintext)]
      encrypted := w.encrypted ++ [(SecureSocket.requestIv seq, plaintext)] }
  | .other use plaintext => some { w with encrypted := w.encrypted ++ [(use.iv, plaintext)] }
  | .accept junk =>
    if junk.length = msgBufSize then
      some { w with sockets := w.sockets ++ [({ msgBuf := junk } : SecureSocket Msg).read] }
    else none
  | .complete k ec bytes response =>
    match w.sockets[k]? with
    | none => none
    | some s =>
      -- `async_read` reads all it is for, or fails
      if s.pending.isSome ∧ bytes.length ≤ s.wants ∧ (ec = false → bytes.length = s.wants) then
        let s' := s.complete cipher p ec bytes
        let w' : Exchange Msg := { w with sockets := w.sockets.set k s' }
        some (if s'.pending.isSome then w' else w'.respond response)
      else none

/-- The tag and the text of the message whose read completes with these bytes. -/
def received (s : SecureSocket Msg) (bytes : Str) : Str :=
  Buffer.read s.msgBuf (s.begin + 8) Crypto.tagSize ++ bytes

/-- What this read of a message decrypts was encrypted under the key with the same vector: the network does not forge
tags. -/
def Unforged (w : Exchange Msg) : ExchangeOp → Prop
  | .complete k _ bytes _ => ∀ s ∈ w.sockets[k]?, s.pending ≠ some .header →
      ∀ _ ∈ cipher.decrypt (SecureSocket.requestIv s.sequenceNumber) (received s bytes),
        ∃ e ∈ w.encrypted, e.1 = SecureSocket.requestIv s.sequenceNumber ∧ received s bytes = cipher.encrypt e.1 e.2
  | _ => True

instance (w : Exchange Msg) : (op : ExchangeOp) → Decidable (w.Unforged cipher op)
  | .complete k _ bytes _ => inferInstanceAs (Decidable (∀ s ∈ w.sockets[k]?, s.pending ≠ some .header →
      ∀ _ ∈ cipher.decrypt (SecureSocket.requestIv s.sequenceNumber) (received s bytes),
        ∃ e ∈ w.encrypted, e.1 = SecureSocket.requestIv s.sequenceNumber ∧
          received s bytes = cipher.encrypt e.1 e.2))
  | .request _ _ | .other _ _ | .accept _ => instDecidableTrue

/-- What holds of a socket: the reads fit into the buffer, and what it handled is a request of the client. -/
structure Sound (requests : List (BitVec 32 × Str)) (s : SecureSocket Msg) : Prop where
  length : s.msgBuf.length = msgBufSize
  begin : s.begin = 0
  fits : ∀ n, s.pending = some (.message n) → headerSize + n < msgBufSize ∧ payloadLength s.typeAndLength = n
  once : s.handled.length ≤ if s.pending.isSome then 0 else 1
  authentic : ∀ r ∈ s.handled, (r.seq, r.plaintext) ∈ requests ∧ p.parse r.plaintext = some r.req

structure Inv : Prop where
  sockets : ∀ s ∈ w.sockets, Sound p w.requests s
  encrypted : ∀ seq plaintext, (SecureSocket.requestIv seq, plaintext) ∈ w.encrypted → (seq, plaintext) ∈ w.requests

theorem requestIv_eq_iff {seq seq' : BitVec 32} :
    SecureSocket.requestIv seq = SecureSocket.requestIv seq' ↔ seq = seq' := Stream.sequenceIv_eq_iff

/-- No other message is encrypted under the vector of a request. -/
theorem otherUse_iv_ne (use : OtherUse) (seq : BitVec 32) : use.iv ≠ SecureSocket.requestIv seq := by
  intro h
  have hfixed : ∀ (seq' : BitVec 32) (fixed : String), (str fixed).length = 2 →
      Stream.sequenceIv seq' fixed = SecureSocket.requestIv seq → str fixed = str "CR" := by
    intro seq' fixed hlength heq
    exact (List.append_inj' heq hlength).2
  cases use with
  | response counter => exact absurd (hfixed counter "HR" (by decide) h) (by decide)
  | hostControl seq' => exact absurd (hfixed seq' "HC" (by decide) h) (by decide)
  | clientControl seq' => exact absurd (hfixed seq' "CC" (by decide) h) (by decide)
  | legacyControl seq' =>
    have hlength := congrArg List.length h
    simp [OtherUse.iv, Stream.legacyIv, SecureSocket.requestIv, Stream.sequenceIv, str] at hlength
  | video counter =>
    have hlast := congrArg List.getLast? h
    simp [OtherUse.iv, Stream.videoIv, SecureSocket.requestIv, Stream.sequenceIv, str] at hlast

variable {cipher p w} {s : SecureSocket Msg} {requests : List (BitVec 32 × Str)} {ec : Bool} {bytes : Str}

theorem Sound.mono {requests' : List (BitVec 32 × Str)} (h : Sound p requests s) (hsub : requests ⊆ requests') :
    Sound p requests' s :=
  { h with authentic := fun r hr => ⟨hsub (h.authentic r hr).1, (h.authentic r hr).2⟩ }

theorem Sound.refuse (h : Sound p requests s) : Sound p requests s.refuse where
  length := h.length
  begin := h.begin
  fits := nofun
  once := by
    have honce := h.once
    show s.handled.length ≤ 1
    split at honce <;> omega
  authentic := h.authentic

theorem sound_read {junk : Str} (hjunk : junk.length = msgBufSize) :
    Sound p requests ({ msgBuf := junk } : SecureSocket Msg).read :=
  ⟨hjunk, rfl, nofun, Nat.le_refl _, nofun⟩

/-- Bytes are read to where the pending read puts them. -/
theorem Sound.write (h : Sound p requests s) {offset : ℕ} (hfits : offset + bytes.length ≤ msgBufSize)
    (hheader : s.pending = some .header ∨ headerSize ≤ offset) :
    Sound p requests (s.put offset bytes) := by
  have hlength := h.length
  refine ⟨(Buffer.length_write (by omega)).trans hlength, h.begin, fun n hn => ?_, h.once, h.authentic⟩
  rcases hheader with hpending | hoffset
  · have hn' : s.pending = some (.message n) := hn
    rw [hpending] at hn'
    cases hn'
  · have hread : Buffer.read (Buffer.write s.msgBuf offset bytes) s.begin 4 = Buffer.read s.msgBuf s.begin 4 := by
      have hbegin := h.begin
      have hsize : headerSize = 24 := rfl
      exact Buffer.read_write_of_disjoint (by omega) (Or.inl (by omega))
    have htype : (s.put offset bytes).typeAndLength = s.typeAndLength := congrArg readBig hread
    rw [htype]
    exact h.fits n hn

theorem Sound.header (h : Sound p requests s) (hpending : s.pending = some .header)
    (hbytes : bytes.length ≤ headerSize) : Sound p requests (s.complete cipher p ec bytes) := by
  have hbegin := h.begin
  have hbuf : msgBufSize = 2048 := rfl
  have hsize : headerSize = 24 := rfl
  have hwrite : Sound p requests (s.put s.begin bytes) := h.write (by omega) (Or.inl hpending)
  unfold SecureSocket.complete
  rw [hpending]
  simp only
  unfold SecureSocket.handleReadEncryptedHeader
  split
  · exact hwrite.refuse
  · split
    · exact hwrite.refuse
    · split
      · exact hwrite.refuse
      next hfits =>
        refine ⟨hwrite.length, hwrite.begin, fun n hn => ?_, ?_, hwrite.authentic⟩
        · obtain rfl := SecureHandler.message.inj (Option.some.inj hn)
          exact ⟨by omega, rfl⟩
        · have honce := h.once
          rw [hpending] at honce
          exact honce

/-- The end of a message: what is handled is a request of the client. -/
theorem Sound.message (hcipher : cipher.Lawful) (h : Sound p requests s) {n : ℕ}
    (hpending : s.pending = some (.message n)) (hbytes : bytes.length ≤ n)
    (hunforged : ∀ plaintext,
      cipher.decrypt (SecureSocket.requestIv s.sequenceNumber) (received s bytes) = some plaintext →
      ∃ other, (s.sequenceNumber, other) ∈ requests ∧
        received s bytes = cipher.encrypt (SecureSocket.requestIv s.sequenceNumber) other) :
    Sound p requests (s.complete cipher p ec bytes) := by
  have hbegin := h.begin
  have hlength := h.length
  have hbuf : msgBufSize = 2048 := rfl
  have hsize : headerSize = 24 := rfl
  have htag : Crypto.tagSize = 16 := rfl
  obtain ⟨hfits, hn⟩ := h.fits n hpending
  have hwrite : Sound p requests (s.put (s.begin + headerSize) bytes) := h.write (by omega) (Or.inr (by omega))
  -- the header is still there, and the text follows the tag
  have hseq : (s.put (s.begin + headerSize) bytes).sequenceNumber = s.sequenceNumber := by
    show readBig (Buffer.read (Buffer.write s.msgBuf (s.begin + headerSize) bytes) (s.begin + 4) 4) = _
    unfold SecureSocket.sequenceNumber
    rw [Buffer.read_write_of_disjoint (by omega) (Or.inl (by omega))]
  have htagged : (s.put (s.begin + headerSize) bytes).tagged bytes.length = received s bytes := by
    unfold received
    show Buffer.read (Buffer.write s.msgBuf (s.begin + headerSize) bytes) (s.begin + 8)
      (Crypto.tagSize + bytes.length) = _
    rw [Buffer.read_add, Buffer.read_write_of_disjoint (by omega) (Or.inl (by omega))]
    congr 1
    exact Buffer.read_write (by omega)
  unfold SecureSocket.complete
  rw [hpending]
  simp only
  unfold SecureSocket.handleReadEncryptedMessage
  split
  · exact hwrite.refuse
  · rw [hseq, htagged]
    cases hdec : cipher.decrypt (SecureSocket.requestIv s.sequenceNumber) (received s bytes) with
    | none => exact hwrite.refuse
    | some plaintext =>
      obtain ⟨other, hother, heq⟩ := hunforged plaintext hdec
      obtain rfl : other = plaintext := by
        rw [heq, hcipher.decrypt_encrypt] at hdec
        exact Option.some.inj hdec
      simp only
      cases hparse : p.parse other with
      | none => exact hwrite.refuse
      | some req =>
        have hnone : s.handled = [] := by
          have honce := h.once
          rw [hpending] at honce
          exact List.eq_nil_of_length_eq_zero (Nat.le_zero.mp honce)
        refine ⟨hwrite.length, hwrite.begin, nofun, ?_, ?_⟩
        · show (s.handled ++ [_]).length ≤ 1
          rw [hnone]
          exact Nat.le_refl _
        · intro r hr
          rcases List.mem_append.mp hr with hr | hr
          · exact h.authentic r hr
          · rw [List.mem_singleton.mp hr]
            exact ⟨hother, hparse⟩

theorem inv_step (hcipher : cipher.Lawful) (h : w.Inv p) {op : ExchangeOp} (hG : w.Unforged cipher op)
    {w' : Exchange Msg} (hst : w.step cipher p op = some w') : w'.Inv p := by
  cases op with
  | request seq plaintext =>
    obtain rfl := Option.some.inj hst
    refine ⟨fun s hs => (h.sockets s hs).mono (List.subset_append_left _ _), fun seq' plaintext' hmem => ?_⟩
    rcases List.mem_append.mp hmem with hmem | hmem
    · exact List.mem_append_left _ (h.encrypted _ _ hmem)
    · obtain ⟨hiv, rfl⟩ := Prod.mk.inj (List.mem_singleton.mp hmem)
      obtain rfl := requestIv_eq_iff.mp hiv
      exact List.mem_append_right _ List.mem_cons_self
  | other use plaintext =>
    obtain rfl := Option.some.inj hst
    refine ⟨h.sockets, fun seq plaintext' hmem => ?_⟩
    rcases List.mem_append.mp hmem with hmem | hmem
    · exact h.encrypted _ _ hmem
    · exact absurd (Prod.mk.inj (List.mem_singleton.mp hmem)).1.symm (otherUse_iv_ne use seq)
  | accept junk =>
    obtain ⟨hjunk, rfl⟩ := of_ite_some hst
    refine ⟨fun s hs => ?_, h.encrypted⟩
    rcases List.mem_append.mp hs with hs | hs
    · exact h.sockets s hs
    · rw [List.mem_singleton.mp hs]
      exact sound_read hjunk
  | complete k ec bytes response =>
    simp only [step] at hst
    cases hk : w.sockets[k]? with
    | none =>
      rw [hk] at hst
      cases hst
    | some s =>
      rw [hk] at hst
      obtain ⟨⟨hpending, hbytes, -⟩, hw'⟩ := of_ite_some hst
      have hs := h.sockets s (List.mem_of_getElem? hk)
      have hsound : Sound p w.requests (s.complete cipher p ec bytes) := by
        cases hp : s.pending with
        | none =>
          rw [hp] at hpending
          cases hpending
        | some handler =>
          cases handler with
          | header => exact hs.header hp (by simpa [SecureSocket.wants, hp] using hbytes)
          | message n =>
            refine hs.message hcipher hp (by simpa [SecureSocket.wants, hp] using hbytes) fun plaintext hdec => ?_
            obtain ⟨⟨iv, other⟩, hmem, rfl, heq⟩ := hG s hk (by rw [hp]; nofun) plaintext hdec
            exact ⟨other, h.encrypted _ _ hmem, heq⟩
      have hset : Inv p { w with sockets := w.sockets.set k (s.complete cipher p ec bytes) } := by
        refine ⟨fun s' hs' => ?_, h.encrypted⟩
        rcases List.mem_or_eq_of_mem_set hs' with hs' | rfl
        · exact h.sockets s' hs'
        · exact hsound
      subst hw'
      split
      · exact hset
      · refine ⟨hset.sockets, fun seq plaintext hmem => ?_⟩
        rcases List.mem_append.mp hmem with hmem | hmem
        · exact h.encrypted _ _ hmem
        · exact absurd (Prod.mk.inj (List.mem_singleton.mp hmem)).1.symm (otherUse_iv_ne (.response _) seq)

theorem Sound.within (h : Sound p requests s) : s.Within := by
  have hbegin := h.begin
  have hlength := h.length
  have hbuf : msgBufSize = 2048 := rfl
  have hsize : headerSize = 24 := rfl
  refine ⟨fun _ => by omega, fun n hn => ?_⟩
  have hfits := (h.fits n hn).1
  omega

/-- **Authentic requests.**  Whatever the network delivers to however many sockets, as long as it does not forge tags:
every request that is handled was encrypted by the client as a request, with its sequence number; a socket handles one
at most, and reads nothing past the end of its buffer. -/
theorem requests_authentic (hcipher : cipher.Lawful) {ops : List ExchangeOp}
    (h : Run (Guarded (ofPartial (step cipher p)) (Unforged cipher)) {} ops w) :
    ∀ s ∈ w.sockets, s.handled.length ≤ 1 ∧ s.Within ∧
      ∀ r ∈ s.handled, (r.seq, r.plaintext) ∈ w.requests ∧ p.parse r.plaintext = some r.req := by
  have hinv : w.Inv p := h.invariant_where (fun _ _ _ hs hG hst => inv_step hcipher hs hG hst) ⟨nofun, nofun⟩
  intro s hs
  have hsound := hinv.sockets s hs
  refine ⟨?_, hsound.within, hsound.authentic⟩
  have honce := hsound.once
  split at honce <;> omega

/-! ### A cipher that marks what it encrypts -/

/-- The tag is the vector, filled up to its length. -/
def markingCipher : Cipher where
  encrypt iv plaintext := (iv ++ List.replicate Crypto.tagSize 0).take Crypto.tagSize ++ plaintext
  decrypt iv tagged :=
    if tagged.take Crypto.tagSize = (iv ++ List.replicate Crypto.tagSize 0).take Crypto.tagSize then
      some (tagged.drop Crypto.tagSize)
    else none

theorem markingCipher_lawful : markingCipher.Lawful := by
  have hlength : ∀ iv : Str, ((iv ++ List.replicate Crypto.tagSize 0).take Crypto.tagSize).length = Crypto.tagSize := by
    intro iv
    rw [List.length_take, List.length_append, List.length_replicate]
    omega
  refine ⟨fun iv plaintext => ?_, fun iv plaintext => ?_⟩
  · show ((iv ++ List.replicate Crypto.tagSize 0).take Crypto.tagSize ++ plaintext).length = _
    rw [List.length_append, hlength]
  · simp only [markingCipher]
    rw [List.take_left' (hlength iv), if_pos rfl, List.drop_left' (hlength iv)]

theorem serve_handled_hi : (serveSecure markingCipher announceParser (List.replicate msgBufSize 0)
    (frame 7 2 (markingCipher.encrypt (SecureSocket.requestIv 7) (str "hi")) ++ [])).handled =
      [⟨7, str "hi", str "hi"⟩] :=
  (serve_handled_iff markingCipher_lawful List.length_replicate).2.2 7 (str "hi") (str "hi") [] (by decide) rfl

/-- A request is encrypted, and comes to a socket in two reads, after a response that was sent back to the host. -/
def requestOps : List ExchangeOp :=
  [.request 7 (str "hi"), .other (.response 1) (str "ok"), .accept (List.replicate msgBufSize 0),
    .complete 0 false ((frame 7 2 (markingCipher.encrypt (SecureSocket.requestIv 7) (str "hi"))).take headerSize) [],
    .complete 0 false (str "hi") (str "ok")]

theorem requests_authentic_hi : ∃ w : Exchange Str,
    (∃ s ∈ w.sockets, s.handled.map (fun r => r.req) = [str "hi"]) ∧
      ∀ s ∈ w.sockets, s.handled.length ≤ 1 ∧ s.Within ∧
        ∀ r ∈ s.handled, (r.seq, r.plaintext) ∈ w.requests ∧ announceParser.parse r.plaintext = some r.req := by
  obtain ⟨w, hrun, hhandled⟩ := exists_run_execWhere_and (f := step markingCipher announceParser)
    (G := Unforged markingCipher) (s := {}) (l := requestOps)
    (P := fun w => ∃ s ∈ w.sockets, s.handled.map (fun r => r.req) = [str "hi"]) (by decide +kernel)
  exact ⟨w, hhandled, requests_authentic markingCipher_lawful hrun⟩

end Exchange

end MidnightSun.Rtsp
