import RowQuery.Text.Quoted
import RowQuery.Number.Digits

/-!
# Inside of literals

In a LIKE pattern `%` stands for any run of characters and `_` for any one character.
A backslash takes the special meaning from the character behind it.

Bytes are written in hexadecimal, as two lower-case digits per byte.  Reading accepts
digits of either case, and a plus sign in place of a leading zero.
-/

namespace RowQuery.Sql

open RowQuery.Number

/-! ## LIKE patterns -/

/-- The escape character of all patterns. -/
def likeEscape : Char := '\\'

/-- A character with a meaning of its own inside a pattern. -/
def isLikeSpecial (c : Char) : Bool :=
  c == likeEscape || c == '%' || c == '_'

/-- The pattern that matches exactly this text. -/
def escapeLike (text : List Char) : List Char :=
  text.flatMap fun c => if isLikeSpecial c then [likeEscape, c] else [c]

/-! ## Bytes in hexadecimal -/

/-- The two digits of a byte. -/
def hexByte (byte : UInt8) : List Char :=
  [Text.hexDigit (byte.toNat / 16), Text.hexDigit (byte.toNat % 16)]

/-- The digits of a list of bytes. -/
def hexEncode (bytes : List UInt8) : List Char :=
  bytes.flatMap hexByte

/-- The value of a hexadecimal digit of either case. -/
def hexValue? (c : Char) : Option Nat :=
  if isDigit c then some (digitOf c)
  else if 97 ≤ c.toNat ∧ c.toNat ≤ 102 then some (c.toNat - 87)
  else if 65 ≤ c.toNat ∧ c.toNat ≤ 70 then some (c.toNat - 55)
  else none

/-- The byte that two characters stand for. -/
def hexPair? (high low : Char) : Option UInt8 := do
  let low ← hexValue? low
  if high = '+' then return UInt8.ofNat low
  let high ← hexValue? high
  return UInt8.ofNat (high * 16 + low)

/-- The bytes that a text of digits stands for. -/
def hexDecode? : List Char → Option (List UInt8)
  | [] => some []
  | [_] => none
  | high :: low :: rest => do
      let byte ← hexPair? high low
      let bytes ← hexDecode? rest
      return byte :: bytes

end RowQuery.Sql
