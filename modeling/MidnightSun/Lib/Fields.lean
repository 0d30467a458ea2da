import Mathlib.Data.List.Basic

/-!
# Parts of a buffer

The bytes that a buffer has in a range, and a buffer some of whose bytes were written over.
-/

namespace MidnightSun.Lib

variable {α : Type}

/-- What the buffer has of the `n` bytes from `pos` on. -/
def bytesAt (buffer : List α) (pos n : ℕ) : List α := (buffer.drop pos).take n

/-- The buffer after `bytes` were written from `pos` on. -/
def overwrite (buffer : List α) (pos : ℕ) (bytes : List α) : List α :=
  buffer.take pos ++ bytes ++ buffer.drop (pos + bytes.length)

end MidnightSun.Lib
