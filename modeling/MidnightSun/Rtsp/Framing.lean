import MidnightSun.Lib.Search
import MidnightSun.Util.FromView

/-!
# Reading a plaintext request (src/rtsp.cpp, `socket_t`)

The reads of a socket without a cipher: up to the end of the header with `handle_read_plaintext`, then up to the end of
the announced payload with `handle_plaintext_payload`.  `parseRtspMessage` is a parameter.
-/

namespace MidnightSun.Rtsp

open Lib Util

/-- `parseRtspMessage`, and the options of a message it returns. -/
structure Parser (Msg : Type) where
  parse : Str → Option Msg
  options : Msg → List (Str × Str)

/-- The handler that the pending read will call. -/
inductive Handler where
  | readPlaintext
  | plaintextPayload
  deriving DecidableEq

/-- `socket_t`: pointers into `msg_buf` are offsets, `crlf` is set when the end of a header was found; what was given to
`handle_data`, and whether the request was refused. -/
structure Socket (Msg : Type) where
  msgBuf : Str
  begin : ℕ := 0
  crlf : ℕ := 0
  pending : Option Handler := none
  handled : List Msg := []
  badRequest : Bool := false

/-- The size of `msg_buf`. -/
def msgBufSize : ℕ := 2048

/-- `needle` of `handle_read_plaintext`. -/
def crlfcrlf : Str := str "\r\n\r\n"

def isdigit (ch : UInt8) : Bool := decide (48 ≤ ch ∧ ch ≤ 57)

/-- `content_length`: the number of the first option of this name, from its first digit on. -/
def contentLength (options : List (Str × Str)) : ℤ :=
  match options.find? fun option => option.1 = str "Content-length" with
  | some option => toInt (fromView (option.2.dropWhile fun ch => !isdigit ch))
  | none => 0

namespace Socket

variable {Msg : Type} (p : Parser Msg) (s : Socket Msg)

/-- The refusal of a request: 400, and the socket is closed. -/
def refuse : Socket Msg := { s with pending := none, badRequest := true }

def read : Socket Msg :=
  if s.begin = msgBufSize then s.refuse else { s with pending := some .readPlaintext }

def readPlaintextPayload : Socket Msg :=
  if s.begin = msgBufSize then s.refuse else { s with pending := some .plaintextPayload }

/-- `handle_data`, after which the socket is shut down. -/
def handleData (req : Msg) : Socket Msg := { s with handled := s.handled ++ [req], pending := none }

def handlePlaintextPayload (bytes : ℕ) : Socket Msg :=
  let stop := s.begin + bytes
  match p.parse (s.msgBuf.take stop) with
  | none => s.refuse
  | some req =>
    if contentLength (p.options req) ≤ (stop : ℤ) - s.crlf then { s.handleData req with begin := stop }
    else ({ s with begin := stop } : Socket Msg).readPlaintextPayload

def handleReadPlaintext (bytes : ℕ) : Socket Msg :=
  let begin := max (s.begin - 4) s.begin
  let bufSize := bytes + (begin - s.begin)
  let stop := begin + bufSize
  match search crlfcrlf ((s.msgBuf.drop begin).take bufSize) with
  | none => ({ s with begin := stop } : Socket Msg).read
  | some it =>
    let s' : Socket Msg := { s with begin := begin + it + crlfcrlf.length, crlf := begin + it + crlfcrlf.length }
    s'.handlePlaintextPayload p (stop - s'.begin)

/-- The bytes of a read are put at `begin`. -/
def write (bytes : Str) : Socket Msg :=
  { s with msgBuf := s.msgBuf.take s.begin ++ bytes ++ s.msgBuf.drop (s.begin + bytes.length) }

/-- A read completes with some bytes. -/
def receive (bytes : Str) : Socket Msg :=
  match s.pending with
  | none => s
  | some .readPlaintext => (s.write bytes).handleReadPlaintext p bytes.length
  | some .plaintextPayload => (s.write bytes).handlePlaintextPayload p bytes.length

end Socket

variable {Msg : Type} {p : Parser Msg}

/-- An accepted socket, whose buffer holds anything, after these reads. -/
def serve (p : Parser Msg) (junk : Str) (reads : List Str) : Socket Msg :=
  reads.foldl (fun s bytes => s.receive p bytes) ({ msgBuf := junk } : Socket Msg).read

/-- A request: a header up to the first empty line and a body of the announced length, which fit into the buffer.  The
parser takes the options from the header, however much of the body there is. -/
structure Request (p : Parser Msg) where
  head : Str
  body : Str
  options : List (Str × Str)
  terminated : search crlfcrlf head = some (head.length - 4)
  parses : ∀ part, part <+: body → ∃ req, p.parse (head ++ part) = some req ∧ p.options req = options
  announced : contentLength options = body.length
  fits : head.length + body.length ≤ msgBufSize

namespace Request

variable (r : Request p)

def bytes : Str := r.head ++ r.body

/-- No read ends within the empty line after the header. -/
def Uncut (reads : List Str) : Prop :=
  ∀ before after, reads = before ++ after →
    before.flatten.length ≤ r.head.length - 4 ∨ r.head.length ≤ before.flatten.length

end Request

/-! ### The header -/

lemma crlfcrlf_ne_nil : crlfcrlf ≠ [] := by decide

lemma length_crlfcrlf : crlfcrlf.length = 4 := by decide

namespace Request

variable (r : Request p)

lemma length_bytes : r.bytes.length = r.head.length + r.body.length := List.length_append

lemma four_le_length_head : 4 ≤ r.head.length := by
  have h := ((search_eq_some_iff crlfcrlf_ne_nil).mp r.terminated).1.length_le crlfcrlf_ne_nil
  rw [length_crlfcrlf] at h
  omega

lemma occursAt_head : OccursAt crlfcrlf r.bytes (r.head.length - 4) := by
  have h := ((search_eq_some_iff crlfcrlf_ne_nil).mp r.terminated).1.append [] r.body
  rwa [List.nil_append, List.length_nil, Nat.zero_add] at h

lemma le_of_occursAt {i : ℕ} (h : OccursAt crlfcrlf r.bytes i) : r.head.length - 4 ≤ i := by
  have h4 := r.four_le_length_head
  by_contra hlt
  have hwithin : OccursAt crlfcrlf r.head i := by
    apply OccursAt.within [] r.body
    · rwa [List.nil_append, List.length_nil, Nat.zero_add]
    · rw [length_crlfcrlf]
      omega
  exact ((search_eq_some_iff crlfcrlf_ne_nil).mp r.terminated).2 i (by omega) hwithin

lemma exists_parse {received rest : Str} (h : r.bytes = received ++ rest) (hlen : r.head.length ≤ received.length) :
    ∃ req, p.parse received = some req ∧ p.options req = r.options := by
  obtain ⟨part, rfl⟩ : ∃ part, received = r.head ++ part := by
    have hpre : r.head <+: received :=
      List.prefix_of_prefix_length_le (List.prefix_append _ r.body) ⟨rest, h.symm⟩ hlen
    obtain ⟨part, hpart⟩ := hpre
    exact ⟨part, hpart.symm⟩
  rw [bytes, List.append_assoc, List.append_cancel_left_eq] at h
  exact r.parses part ⟨rest, h.symm⟩

section Search

variable {received bytes rest : Str} (h : r.bytes = received ++ bytes ++ rest)

include h

lemma le_of_search {i : ℕ} (hi : search crlfcrlf bytes = some i) :
    r.head.length - 4 ≤ received.length + i ∧ i + 4 ≤ bytes.length := by
  have hoccurs := ((search_eq_some_iff crlfcrlf_ne_nil).mp hi).1
  have hle := hoccurs.length_le crlfcrlf_ne_nil
  rw [length_crlfcrlf] at hle
  have happend := hoccurs.append received rest
  rw [← h] at happend
  exact ⟨r.le_of_occursAt happend, hle⟩

/-- The end of the header is found in the read that it is in. -/
lemma search_of_mem (hstart : received.length ≤ r.head.length - 4)
    (hstop : r.head.length ≤ (received ++ bytes).length) :
    search crlfcrlf bytes = some (r.head.length - 4 - received.length) := by
  have h4 := r.four_le_length_head
  rw [List.length_append] at hstop
  rw [search_eq_some_iff crlfcrlf_ne_nil]
  constructor
  · apply OccursAt.within received rest
    · rw [← h, Nat.add_sub_cancel' hstart]
      exact r.occursAt_head
    · rw [length_crlfcrlf]
      omega
  · intro j hj hoccurs
    have happend := hoccurs.append received rest
    rw [← h] at happend
    have hle := r.le_of_occursAt happend
    omega

lemma search_of_before (hstop : (received ++ bytes).length < r.head.length) : search crlfcrlf bytes = none := by
  rw [search_eq_none_iff crlfcrlf_ne_nil]
  intro i hoccurs
  have hle := hoccurs.length_le crlfcrlf_ne_nil
  have happend := hoccurs.append received rest
  rw [← h] at happend
  have hge := r.le_of_occursAt happend
  rw [length_crlfcrlf] at hle
  rw [List.length_append] at hstop
  omega

end Search

end Request

/-! ### The machine -/

/-- What was received is in the buffer, and nothing was handed on. -/
structure Buffered (s : Socket Msg) (received : Str) : Prop where
  begin_eq : s.begin = received.length
  take_eq : s.msgBuf.take s.begin = received
  handled_eq : s.handled = []

namespace Buffered

variable {s : Socket Msg} {received bytes : Str}

lemma max_begin_write : max ((s.write bytes).begin - 4) (s.write bytes).begin = s.begin := max_eq_right (Nat.sub_le _ _)

lemma length_begin_write : bytes.length + (s.begin - (s.write bytes).begin) = bytes.length := by
  show bytes.length + (s.begin - s.begin) = _
  rw [Nat.sub_self, Nat.add_zero]

variable (hs : Buffered s received)

include hs

lemma take_write : (s.write bytes).msgBuf.take (received ++ bytes).length = received ++ bytes := by
  rw [Socket.write, hs.take_eq]
  exact List.take_left' rfl

lemma window_write : ((s.write bytes).msgBuf.drop s.begin).take bytes.length = bytes := by
  rw [Socket.write, hs.take_eq, hs.begin_eq, List.append_assoc, List.drop_left, List.take_left]

lemma advance (crlf : ℕ) (pending : Option Handler) :
    Buffered ({ s.write bytes with begin := (received ++ bytes).length, crlf := crlf, pending := pending })
      (received ++ bytes) :=
  ⟨rfl, hs.take_write, hs.handled_eq⟩

lemma handleReadPlaintext_none (hsearch : search crlfcrlf bytes = none) :
    (s.write bytes).handleReadPlaintext p bytes.length =
      ({ s.write bytes with begin := (received ++ bytes).length } : Socket Msg).read := by
  rw [Socket.handleReadPlaintext]
  dsimp only
  rw [max_begin_write, length_begin_write, hs.window_write, hsearch, hs.begin_eq, List.length_append]

lemma handleReadPlaintext_some {i : ℕ} (hsearch : search crlfcrlf bytes = some i) :
    (s.write bytes).handleReadPlaintext p bytes.length =
      Socket.handlePlaintextPayload p
        { s.write bytes with begin := received.length + i + 4, crlf := received.length + i + 4 }
        ((received ++ bytes).length - (received.length + i + 4)) := by
  rw [Socket.handleReadPlaintext]
  dsimp only
  rw [max_begin_write, length_begin_write, hs.window_write, hsearch, hs.begin_eq, List.length_append]
  rfl

end Buffered

namespace Request

variable (r : Request p)

/-- The payload handler when the header has arrived: the message is handed on as soon as there are enough bytes after
`crlf`, and until then the socket goes on reading. -/
lemma handlePlaintextPayload_spec {received rest : Str} {s : Socket Msg} {bytes : ℕ} (h : r.bytes = received ++ rest)
    (hlen : r.head.length ≤ received.length) (hstop : s.begin + bytes = received.length)
    (htake : s.msgBuf.take received.length = received) :
    ∃ req, p.parse received = some req ∧ s.handlePlaintextPayload p bytes =
      if s.crlf + r.body.length ≤ received.length then { s.handleData req with begin := received.length }
      else ({ s with begin := received.length } : Socket Msg).readPlaintextPayload := by
  obtain ⟨req, hparse, hoptions⟩ := r.exists_parse h hlen
  refine ⟨req, hparse, ?_⟩
  rw [Socket.handlePlaintextPayload]
  dsimp only
  rw [hstop, htake, hparse]
  dsimp only
  rw [hoptions, r.announced]
  by_cases hle : s.crlf + r.body.length ≤ received.length
  · rw [if_pos hle, if_pos (by omega)]
  · rw [if_neg hle, if_neg (by omega)]

/-- Where the machine is after a part of a request none of whose reads ended within the empty line. -/
inductive Reading (s : Socket Msg) (received : Str) : Prop
  | header (hs : Buffered s received) (hpending : s.pending = some .readPlaintext)
      (hlen : received.length ≤ r.head.length - 4)
  | payload (hs : Buffered s received) (hpending : s.pending = some .plaintextPayload)
      (hcrlf : s.crlf = r.head.length) (hlen : r.head.length ≤ received.length)
      (hrest : received.length < r.bytes.length)
  | done (req : Msg) (hparse : p.parse r.bytes = some req) (hhandled : s.handled = [req]) (hpending : s.pending = none)

/-- The payload handler after a read, when `crlf` is at the end of the header. -/
lemma reading_of_payload {s : Socket Msg} {received rest : Str} {bytes : ℕ} (h : r.bytes = received ++ rest)
    (hlen : r.head.length ≤ received.length) (hstop : s.begin + bytes = received.length)
    (htake : s.msgBuf.take received.length = received) (hhandled : s.handled = []) (hcrlf : s.crlf = r.head.length) :
    r.Reading (s.handlePlaintextPayload p bytes) received := by
  obtain ⟨req, hparse, heq⟩ := r.handlePlaintextPayload_spec h hlen hstop htake
  have hbytes := congrArg List.length h
  rw [List.length_append, r.length_bytes] at hbytes
  rw [heq]
  by_cases hle : s.crlf + r.body.length ≤ received.length
  · rw [if_pos hle]
    obtain rfl : rest = [] := List.length_eq_zero_iff.mp (by omega)
    rw [List.append_nil] at h
    refine Reading.done req (h ▸ hparse) ?_ rfl
    show s.handled ++ [req] = [req]
    rw [hhandled, List.nil_append]
  · have hroom : received.length ≠ msgBufSize := by
      have hfits := r.fits
      omega
    rw [if_neg hle, Socket.readPlaintextPayload, if_neg hroom]
    refine Reading.payload ⟨rfl, htake, hhandled⟩ rfl hcrlf hlen ?_
    rw [r.length_bytes]
    omega

/-- A read that does not end within the empty line. -/
theorem reading_receive {s : Socket Msg} {received bytes rest : Str} (h : r.bytes = received ++ bytes ++ rest)
    (hcut : (received ++ bytes).length ≤ r.head.length - 4 ∨ r.head.length ≤ (received ++ bytes).length)
    (hs : r.Reading s received) : r.Reading (s.receive p bytes) (received ++ bytes) := by
  have h4 := r.four_le_length_head
  cases hs with
  | header hs hpending hlen =>
    rw [Socket.receive, hpending]
    dsimp only
    rcases hcut with hbefore | hafter
    · have hsearch := r.search_of_before h (by omega)
      have hroom : (received ++ bytes).length ≠ msgBufSize := by
        have hfits := r.fits
        omega
      rw [hs.handleReadPlaintext_none hsearch, Socket.read, if_neg hroom]
      exact Reading.header (hs.advance _ _) rfl hbefore
    · have hsearch := r.search_of_mem h hlen hafter
      have hend : received.length + (r.head.length - 4 - received.length) + 4 = r.head.length := by omega
      rw [hs.handleReadPlaintext_some hsearch, hend]
      exact r.reading_of_payload h hafter (Nat.add_sub_cancel' hafter) hs.take_write hs.handled_eq rfl
  | payload hs hpending hcrlf hlen hrest =>
    rw [Socket.receive, hpending]
    dsimp only
    have hafter : r.head.length ≤ (received ++ bytes).length := by
      rw [List.length_append]
      omega
    have hstop : (s.write bytes).begin + bytes.length = (received ++ bytes).length := by
      rw [List.length_append, ← hs.begin_eq]
      rfl
    exact r.reading_of_payload h hafter hstop hs.take_write hs.handled_eq hcrlf
  | done req hparse hhandled hpending =>
    rw [Socket.receive, hpending]
    exact Reading.done req hparse hhandled hpending

/-- Reads none of which ends within the empty line. -/
theorem reading_reads (received : Str) {reads : List Str} {s : Socket Msg} (h : r.bytes = received ++ reads.flatten)
    (hcut : ∀ before after, reads = before ++ after → (received ++ before.flatten).length ≤ r.head.length - 4 ∨
      r.head.length ≤ (received ++ before.flatten).length)
    (hs : r.Reading s received) : r.Reading (reads.foldl (fun s bytes => s.receive p bytes) s) r.bytes := by
  induction reads generalizing s received with
  | nil =>
    rw [List.flatten_nil, List.append_nil] at h
    rw [h]
    exact hs
  | cons bytes reads ih =>
    rw [List.flatten_cons, ← List.append_assoc] at h
    have hfirst := hcut [bytes] reads rfl
    rw [List.flatten_singleton] at hfirst
    apply ih _ h
    · intro before after hreads
      have hnext := hcut (bytes :: before) after (by rw [hreads, List.cons_append])
      rwa [List.flatten_cons, ← List.append_assoc] at hnext
    · exact r.reading_receive h hfirst hs

lemma reading_start (junk : Str) : r.Reading ({ msgBuf := junk } : Socket Msg).read [] :=
  Reading.header ⟨rfl, rfl, rfl⟩ rfl (Nat.zero_le _)

theorem handled_of_uncut (junk : Str) {reads : List Str} (h : reads.flatten = r.bytes) (hcut : r.Uncut reads) :
    ∃ req, p.parse r.bytes = some req ∧ (serve p junk reads).handled = [req] := by
  have h4 := r.four_le_length_head
  have hlen := r.length_bytes
  have hend : r.Reading (serve p junk reads) r.bytes :=
    r.reading_reads [] h.symm hcut (r.reading_start junk)
  cases hend with
  | header hs hpending hle => omega
  | payload hs hpending hcrlf hle hrest => exact absurd hrest (lt_irrefl _)
  | done req hparse hhandled hpending => exact ⟨req, hparse, hhandled⟩

/-! ### A cut within the empty line -/

/-- Where the machine is when no read held the whole empty line after the header: it may take a later one for it, and
then waits for more bytes than there are. -/
inductive Missing (s : Socket Msg) (received : Str) : Prop
  | header (hs : Buffered s received) (hpending : s.pending = some .readPlaintext)
  | payload (hs : Buffered s received) (hpending : s.pending = some .plaintextPayload)
      (hcrlf : r.head.length < s.crlf) (hle : s.crlf ≤ received.length)
  | stopped (hpending : s.pending = none) (hhandled : s.handled = [])

lemma missing_of_payload {s : Socket Msg} {received rest : Str} {bytes : ℕ} (h : r.bytes = received ++ rest)
    (hcrlf : r.head.length < s.crlf) (hle : s.crlf ≤ received.length) (hstop : s.begin + bytes = received.length)
    (htake : s.msgBuf.take received.length = received) (hhandled : s.handled = []) :
    r.Missing (s.handlePlaintextPayload p bytes) received := by
  obtain ⟨req, -, heq⟩ := r.handlePlaintextPayload_spec h (by omega) hstop htake
  have hbytes := congrArg List.length h
  rw [List.length_append, r.length_bytes] at hbytes
  rw [heq, if_neg (by omega), Socket.readPlaintextPayload]
  split_ifs with hfull
  · exact Missing.stopped rfl hhandled
  · exact Missing.payload ⟨rfl, htake, hhandled⟩ rfl hcrlf hle

/-- A read that does not hold the whole empty line. -/
theorem missing_receive (rest : Str) {s : Socket Msg} {received bytes : Str} (h : r.bytes = received ++ bytes ++ rest)
    (hmiss : r.head.length - 4 < received.length ∨ (received ++ bytes).length < r.head.length)
    (hs : r.Missing s received) : r.Missing (s.receive p bytes) (received ++ bytes) := by
  cases hs with
  | header hs hpending =>
    rw [Socket.receive, hpending]
    dsimp only
    cases hsearch : search crlfcrlf bytes with
    | none =>
      rw [hs.handleReadPlaintext_none hsearch, Socket.read]
      split_ifs with hfull
      · exact Missing.stopped rfl hs.handled_eq
      · exact Missing.header (hs.advance _ _) rfl
    | some i =>
      obtain ⟨hge, hle⟩ := r.le_of_search h hsearch
      rw [List.length_append] at hmiss
      have h4 := r.four_le_length_head
      have hstop : received.length + i + 4 ≤ (received ++ bytes).length := by
        rw [List.length_append]
        omega
      have hcrlf : r.head.length < received.length + i + 4 := by omega
      rw [hs.handleReadPlaintext_some hsearch]
      exact r.missing_of_payload
        (s := { s.write bytes with begin := received.length + i + 4, crlf := received.length + i + 4 })
        h hcrlf hstop (Nat.add_sub_cancel' hstop) hs.take_write hs.handled_eq
  | payload hs hpending hcrlf hle =>
    rw [Socket.receive, hpending]
    dsimp only
    have hstop : (s.write bytes).begin + bytes.length = (received ++ bytes).length := by
      rw [List.length_append, ← hs.begin_eq]
      rfl
    have hle' : (s.write bytes).crlf ≤ (received ++ bytes).length := by
      rw [List.length_append]
      exact Nat.le_add_right_of_le hle
    exact r.missing_of_payload h hcrlf hle' hstop hs.take_write hs.handled_eq
  | stopped hpending hhandled =>
    rw [Socket.receive, hpending]
    exact Missing.stopped hpending hhandled

/-- Reads all of which come before the end of the empty line, or all after its start. -/
theorem missing_reads (received rest : Str) {reads : List Str} {s : Socket Msg}
    (h : r.bytes = received ++ reads.flatten ++ rest)
    (hmiss : r.head.length - 4 < received.length ∨ (received ++ reads.flatten).length < r.head.length)
    (hs : r.Missing s received) :
    r.Missing (reads.foldl (fun s bytes => s.receive p bytes) s) (received ++ reads.flatten) := by
  induction reads generalizing s received with
  | nil =>
    rw [List.flatten_nil, List.append_nil]
    exact hs
  | cons bytes reads ih =>
    rw [List.flatten_cons, ← List.append_assoc] at h hmiss ⊢
    have hnext : r.Missing (s.receive p bytes) (received ++ bytes) := by
      apply r.missing_receive (reads.flatten ++ rest)
      · rw [h, List.append_assoc]
      · rcases hmiss with hafter | hbefore
        · exact Or.inl hafter
        · rw [List.length_append] at hbefore
          exact Or.inr (by omega)
      · exact hs
    apply ih _ h ?_ hnext
    rcases hmiss with hafter | hbefore
    · left
      rw [List.length_append]
      omega
    · exact Or.inr hbefore

theorem handled_of_cut {junk : Str} {reads : List Str} (h : reads.flatten = r.bytes) (hcut : ¬r.Uncut reads) :
    (serve p junk reads).handled = [] := by
  rw [Uncut] at hcut
  push Not at hcut
  obtain ⟨before, after, rfl, hstart, hstop⟩ := hcut
  rw [List.flatten_append] at h
  have hfirst := r.missing_reads [] after.flatten (s := ({ msgBuf := junk } : Socket Msg).read)
    h.symm (Or.inr hstop) (Missing.header ⟨rfl, rfl, rfl⟩ rfl)
  rw [List.nil_append] at hfirst
  have hend := r.missing_reads before.flatten [] (by rw [List.append_nil, h])
    (Or.inl hstart) hfirst
  rw [serve, List.foldl_append]
  cases hend with
  | header hs hpending => exact hs.handled_eq
  | payload hs hpending hcrlf hle => exact hs.handled_eq
  | stopped hpending hhandled => exact hhandled

/-- **A request is handed on once and as in a single read exactly when no read ends within the empty line after its
header.** -/
theorem handled_once_iff (junk : Str) {reads : List Str} (h : reads.flatten = r.bytes) :
    (∃ req, (serve p junk reads).handled = [req] ∧ (serve p junk [r.bytes]).handled = [req]) ↔ r.Uncut reads := by
  have hsingle : r.Uncut [r.bytes] := by
    intro before after hreads
    rcases before with _ | ⟨bytes, before⟩
    · exact Or.inl (Nat.zero_le _)
    · rw [List.cons_append, List.cons.injEq] at hreads
      obtain ⟨rfl, -⟩ := hreads
      right
      rw [List.flatten_cons, List.length_append, r.length_bytes]
      omega
  constructor
  · rintro ⟨req, hreq, -⟩
    by_contra hcut
    rw [r.handled_of_cut h hcut] at hreq
    cases hreq
  · intro hcut
    obtain ⟨req, hparse, hreq⟩ := r.handled_of_uncut junk h hcut
    obtain ⟨req', hparse', hreq'⟩ := r.handled_of_uncut junk List.flatten_singleton hsingle
    rw [hparse] at hparse'
    cases hparse'
    exact ⟨req, hreq, hreq'⟩

end Request

/-- A parser for the requests of one client, which have one option. -/
def announceParser : Parser Str where
  parse := some
  options _ := [(str "Content-length", str " 2")]

def announceRequest : Request announceParser where
  head := str "ANNOUNCE x RTSP/1.0\r\nContent-length: 2\r\n\r\n"
  body := str "hi"
  options := [(str "Content-length", str " 2")]
  terminated := by decide
  parses part _ := ⟨_, rfl, rfl⟩
  announced := by decide
  fits := by decide

theorem handled_once_two :
    (∃ req, (serve announceParser [] [announceRequest.head, announceRequest.body]).handled = [req] ∧
      (serve announceParser [] [announceRequest.bytes]).handled = [req]) ↔
    announceRequest.Uncut [announceRequest.head, announceRequest.body] :=
  announceRequest.handled_once_iff [] (by decide)

/-- The same request in two reads, the first up to the second last byte of the header. -/
def cutReads : List Str := [announceRequest.head.dropLast, str "\nhi"]

theorem not_handled_of_cut :
    cutReads.flatten = announceRequest.bytes ∧
      ¬∃ req, (serve announceParser [] cutReads).handled = [req] ∧
        (serve announceParser [] [announceRequest.bytes]).handled = [req] := by
  have hcut : (serve announceParser [] cutReads).handled = [] := by decide
  refine ⟨by decide, ?_⟩
  rintro ⟨req, hreq, -⟩
  rw [hcut] at hreq
  cases hreq

end MidnightSun.Rtsp
