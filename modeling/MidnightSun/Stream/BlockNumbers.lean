import Mathlib.Tactic.Linarith
import MidnightSun.Stream.Fec
import MidnightSun.Stream.Reassembly

/-!
# The numbers of a frame that is sent (src/stream.cpp, `videoBroadcastThread` and `fec::encode`)

The packet size and the minimum of parity shards are the client's.  From them the broadcast computes the length of the
last packet in 16 bits and the offset of each packet and the index of each shard in `int`s, and it divides by the number
of packets that it sends in a millisecond.
-/

namespace MidnightSun.Stream

open Lib Util

section Frame

variable {rs : List Str → ℕ → List Str} {packetsize fec min : ℤ}

end Frame

end MidnightSun.Stream
