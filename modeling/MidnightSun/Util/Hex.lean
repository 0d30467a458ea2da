import MidnightSun.Boost.PropertyTree

/-!
# Hexadecimal text (src/utility.h)

`hex_vec` writes two characters for each byte; `from_hex_vec` and `from_hex` read pairs of characters from the end,
skipping what is neither a digit nor a letter.
-/

namespace MidnightSun.Util

/-- `is_convertable`: a digit, or any letter. -/
def isConvertable (ch : UInt8) : Bool :=
  (48 ≤ ch && ch ≤ 57) || (97 ≤ (ch ||| 32) && (ch ||| 32) ≤ 122)

def convert (ch : UInt8) : UInt8 :=
  if 48 ≤ ch && ch ≤ 57 then ch - 48 else (ch ||| 32) - 97 + 10

/-- The bytes of a reversed list of digits; a digit without a partner is left out. -/
def hexBytes : List UInt8 → List UInt8
  | r :: l :: ds => (convert l <<< 4 ||| convert r) :: hexBytes ds
  | _ => []

/-- `from_hex_vec`. -/
def fromHexVec (hex : Str) (rev : Bool) : Str :=
  let buf := hexBytes (hex.filter isConvertable).reverse
  if rev then buf.reverse else buf

/-- `from_hex<std::array<uint8_t, n>>`: missing bytes are zero. -/
def fromHex (n : ℕ) (hex : Str) (rev : Bool) : Str :=
  let buf := hexBytes (hex.filter isConvertable).reverse
  let buf := buf ++ List.replicate (n - buf.length) 0
  if rev then buf.reverse else buf

/-- `_bits`. -/
def bits (n : UInt8) : UInt8 := if n < 10 then n + 48 else n + 55

/-- `hex_vec`. -/
def hexVec (bytes : Str) (rev : Bool) : Str :=
  (if rev then bytes else bytes.reverse).flatMap fun b => [bits (b / 16), bits (b % 16)]

end MidnightSun.Util
