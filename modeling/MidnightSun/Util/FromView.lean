import Mathlib.Data.Int.Notation
import MidnightSun.Boost.PropertyTree

/-!
# Numbers in text (src/utility.h)
-/

namespace MidnightSun.Util

/-- `ch - '0'` as a 64-bit number; `char` is signed. -/
def digitOf (ch : UInt8) : BitVec 64 := ch.toBitVec.signExtend 64 - 48

/-- The loop of `from_chars` over the reversed text; the last character of it may be a sign. -/
def fromCharsLoop (res mul : BitVec 64) : List UInt8 → BitVec 64
  | [] => 0
  | [c] => if c = 45 then -res else res + digitOf c * mul
  | c :: cs => fromCharsLoop (res + digitOf c * mul) (mul * 10) cs

/-- `from_view`: no character is rejected. -/
def fromView (number : Str) : BitVec 64 := fromCharsLoop 0 1 number.reverse

/-- The conversion of an `int64_t` to `int`. -/
def toInt (x : BitVec 64) : ℤ := (x.setWidth 32).toInt

end MidnightSun.Util
