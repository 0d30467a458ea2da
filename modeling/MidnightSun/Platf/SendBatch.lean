import Mathlib
import MidnightSun.Boost.PropertyTree
import MidnightSun.Lib.Slices

/-!
# Sending the shards of a block (src/platform/linux/misc.cpp, src/platform/common.h, src/stream.cpp)

`send_batch` first tries messages that the kernel cuts into datagrams, then `sendmmsg`, and `videoBroadcastThread` sends
each shard of the batch on its own if neither was available.  The kernel is a list of results, one for each call.
-/

namespace MidnightSun.Platf

open Lib

/-! ### Shards -/

/-- The shards of a block as `fec_t` holds them: `aligned` of them in the payload, the others in a buffer of their own,
and the headers in another, whose address may be null when there are none. -/
structure ShardBuffers where
  shards : List Str
  blocksize : ℕ
  aligned : ℕ
  prefixsize : ℕ
  headers : Str
  nullHeaders : Bool
  blocksize_pos : 0 < blocksize
  length_shard : ∀ s ∈ shards, s.length = blocksize
  length_headers : headers.length = shards.length * prefixsize
  prefixsize_of_null : nullHeaders = true → prefixsize = 0

namespace ShardBuffers

variable (f : ShardBuffers)

/-- `fec_t::data`. -/
def data (el : ℕ) : Str := f.shards.getD el []

/-- `fec_t::prefix`. -/
def header (el : ℕ) : Str := (f.headers.drop (el * f.prefixsize)).take f.prefixsize

/-- `payload_buffers`. -/
def payloadBuffers : List Str := [(f.shards.take f.aligned).flatten, (f.shards.drop f.aligned).flatten]

/-- A shard with its own header, and its number. -/
def datagram (el : ℕ) : ℕ × Str := (el, f.header el ++ f.data el)

/-- The shards of a batch. -/
def batch (offset count : ℕ) : List (ℕ × Str) := (List.range' offset count).map f.datagram

end ShardBuffers

/-! ### Messages -/

/-- `batched_send_info_t`. -/
structure SendInfo where
  headers : Option Str
  headerSize : ℕ
  payloadBuffers : List Str
  payloadSize : ℕ
  blockOffset : ℕ
  blockCount : ℕ

/-- `buffer_for_payload_offset`: the bytes from the offset to the end of its buffer. -/
def bufferForPayloadOffset : List Str → ℕ → Str
  | [], _ => []
  | desc :: descs, offset =>
    if offset < desc.length then desc.drop offset else bufferForPayloadOffset descs (offset - desc.length)

namespace SendInfo

variable (info : SendInfo)

def msgSize : ℕ := info.headerSize + info.payloadSize

/-- The two `iovec`s of a block with a header, or the one of a block without. -/
def blockIovs (block : ℕ) : Str :=
  (match info.headers with
    | some headers => (headers.drop (block * info.headerSize)).take info.headerSize
    | none => []) ++
    (bufferForPayloadOffset info.payloadBuffers (block * info.payloadSize)).take info.payloadSize

/-- The loop that translates buffer descriptors into `iovec`s, `room` of them left. -/
def gather (stop : ℕ) : ℕ → ℕ → Option Str
  | 0, offset => if offset < stop then none else some []
  | room + 1, offset =>
    if offset < stop then
      let desc := bufferForPayloadOffset info.payloadBuffers offset
      let len := min desc.length (stop - offset)
      (gather stop room (offset + len)).map fun bytes => desc.take len ++ bytes
    else some []

/-- The bytes of a message of `segs` segments, in the order of its `iovec`s. -/
def gsoBytes (segIndex segs : ℕ) : Option Str :=
  match info.headers with
  | some _ => some ((List.range segs).flatMap fun i => info.blockIovs (info.blockOffset + segIndex + i))
  | none =>
    let offset := (info.blockOffset + segIndex) * info.payloadSize
    info.gather (offset + segs * info.payloadSize) info.payloadBuffers.length offset

end SendInfo

/-! ### System calls -/

/-- What a call of `sendmsg` or `sendmmsg` does: it hands over so many whole datagrams, or finds no buffer space, where
`poll` then waits until there is some or fails, or it fails. -/
inductive CallResult where
  | sent (n : ℕ)
  | again (writable : Bool)
  | error
  deriving DecidableEq

/-- A hard error. -/
def CallResult.isHard : CallResult → Bool
  | sent _ => false
  | again writable => !writable
  | error => true

/-- The datagrams that a message is cut into; `UDP_SEGMENT` is set for more than one segment, and has 16 bits. -/
def datagramsOf (msgSize segs : ℕ) (bytes : Str) : List Str :=
  if 1 < segs then slices (msgSize % 2 ^ 16) bytes else [bytes]

/-- `65536 / 1500`. -/
def segMax : ℕ := 43

/-- A list of datagrams with the numbers of their shards. -/
def labelled (first : ℕ) (datagrams : List Str) : List (ℕ × Str) :=
  (List.range' first datagrams.length).zip datagrams

namespace SendInfo

variable (info : SendInfo)

/-- The loop with segmentation offload, from `seg_index` on: where it ends, what it hands over, and the results left.
No kernel accepts a message of 64 kilobytes, or more datagrams than it has. -/
def gsoLoop : List CallResult → ℕ → Option (ℕ × List (ℕ × Str) × List CallResult)
  | [], segIndex => if segIndex < info.blockCount then none else some (segIndex, [], [])
  | result :: results, segIndex =>
    if segIndex < info.blockCount then
      match result with
      | .again true => gsoLoop results segIndex
      | .again false => some (segIndex, [], results)
      | .error => some (segIndex, [], results)
      | .sent n =>
        let segs := min (info.blockCount - segIndex) segMax
        (info.gsoBytes segIndex segs).bind fun bytes =>
          let datagrams := datagramsOf info.msgSize segs bytes
          if 1 ≤ n ∧ n ≤ datagrams.length ∧ bytes.length < 2 ^ 16 then
            let bytesSent := (datagrams.take n).flatten.length
            (gsoLoop results (segIndex + bytesSent / info.msgSize)).map fun r =>
              (r.1, labelled (info.blockOffset + segIndex) (datagrams.take n) ++ r.2.1, r.2.2)
          else none
    else some (segIndex, [], result :: results)

/-- The loop with `sendmmsg`, from `blocks_sent` on: what it returns, what it hands over, and the results left. -/
def mmsgLoop : List CallResult → ℕ → Option (Bool × List (ℕ × Str) × List CallResult)
  | [], blocksSent => if blocksSent < info.blockCount then none else some (true, [], [])
  | result :: results, blocksSent =>
    if blocksSent < info.blockCount then
      match result with
      | .again true => mmsgLoop results blocksSent
      | .again false => some (true, [], results)
      | .error => some (false, [], results)
      | .sent n =>
        let msgs := (List.range' (info.blockOffset + blocksSent) (info.blockCount - blocksSent)).map info.blockIovs
        if 1 ≤ n ∧ n ≤ msgs.length ∧ ∀ msg ∈ msgs.take n, msg.length < 2 ^ 16 then
          (mmsgLoop results (blocksSent + n)).map fun r =>
            (r.1, labelled (info.blockOffset + blocksSent) (msgs.take n) ++ r.2.1, r.2.2)
        else none
    else some (true, [], result :: results)

/-- `send_batch`, built with or without `UDP_SEGMENT`. -/
def sendBatch (udpSegment : Bool) (results : List CallResult) : Option (Bool × List (ℕ × Str) × List CallResult) :=
  if udpSegment then
    (info.gsoLoop results 0).bind fun r =>
      if r.1 ≠ 0 then some (decide (info.blockCount ≤ r.1), r.2.1, r.2.2)
      else (info.mmsgLoop r.2.2 0).map fun r' => (r'.1, r.2.1 ++ r'.2.1, r'.2.2)
  else info.mmsgLoop results 0

end SendInfo

/-- `platf::send` of a datagram. -/
def sendOne (datagram : ℕ × Str) : List CallResult → Option (List (ℕ × Str) × List CallResult)
  | [] => none
  | .again true :: results => sendOne datagram results
  | .again false :: results => some ([], results)
  | .error :: results => some ([], results)
  | .sent n :: results => if n = 1 ∧ datagram.2.length < 2 ^ 16 then some ([datagram], results) else none

/-- The fall-back loop of `videoBroadcastThread`, which ignores what `send` returns. -/
def sendEach : List (ℕ × Str) → List CallResult → Option (List (ℕ × Str) × List CallResult)
  | [], results => some ([], results)
  | datagram :: datagrams, results =>
    (sendOne datagram results).bind fun r =>
      (sendEach datagrams r.2).map fun r' => (r.1 ++ r'.1, r'.2)

/-- A batch of a block as `videoBroadcastThread` describes it. -/
def ShardBuffers.info (f : ShardBuffers) (offset count : ℕ) : SendInfo where
  headers := if f.nullHeaders then none else some f.headers
  headerSize := f.prefixsize
  payloadBuffers := f.payloadBuffers
  payloadSize := f.blocksize
  blockOffset := offset
  blockCount := count

/-- What `videoBroadcastThread` does with the outcome of `send_batch`; no call is left out. -/
def afterBatch (f : ShardBuffers) (offset count : ℕ) (r : Bool × List (ℕ × Str) × List CallResult) :
    Option (Bool × List (ℕ × Str)) :=
  if r.1 then if r.2.2 = [] then some (true, r.2.1) else none
  else (sendEach (f.batch offset count) r.2.2).bind fun r' => if r'.2 = [] then some (false, r.2.1 ++ r'.1) else none

/-- `videoBroadcastThread` for a batch, when the calls have just these results: whether `send_batch` returned true, and
what was handed to the socket. -/
def transmit (udpSegment : Bool) (f : ShardBuffers) (offset count : ℕ) (results : List CallResult) :
    Option (Bool × List (ℕ × Str)) :=
  ((f.info offset count).sendBatch udpSegment results).bind (afterBatch f offset count)

end MidnightSun.Platf
