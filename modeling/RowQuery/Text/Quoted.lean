import RowQuery.Text.Case
import RowQuery.Text.HiddenTable

/-!
# Quoted text

The one-line quoted form of a text used in reports and in the printed form of
expressions.  Quotes and backslashes are escaped, controls have their usual
short forms, and a character without a shape of its own is written by number.
-/

namespace RowQuery.Text

/-- The lower-case hexadecimal digit of a number below sixteen. -/
def hexDigit (n : Nat) : Char :=
  if n < 10 then Char.ofNat (n + 48) else Char.ofNat (n + 87)

/-- The hexadecimal digits of a number, without leading zeros. -/
def hexDigits (n : Nat) : List Char :=
  if _ : n < 16 then [hexDigit n] else hexDigits (n / 16) ++ [hexDigit (n % 16)]
termination_by n
decreasing_by omega

/-- A character that is not shown as itself inside a quoted text. -/
def isHidden (c : Char) : Bool :=
  if 32 ≤ c.toNat && c.toNat < 127 then false
  else inRanges HiddenTable.ranges c.toNat

/-- One character of a quoted text. -/
def quotedChar (c : Char) : List Char :=
  if c = '"' then ['\\', '"']
  else if c = '\\' then ['\\', '\\']
  else if c = '\n' then ['\\', 'n']
  else if c = '\r' then ['\\', 'r']
  else if c = '\t' then ['\\', 't']
  else if c.toNat = 0 then ['\\', '0']
  else if isHidden c then
    ['\\', 'u', Char.ofNat 123] ++ hexDigits c.toNat ++ [Char.ofNat 125]
  else [c]

/-- A text between double quotes. -/
def quoted (text : String) : String :=
  String.ofList ('"' :: text.toList.flatMap quotedChar ++ ['"'])

end RowQuery.Text
