import RowQuery.Keyed
import RowQuery.Number.Binary64
import RowQuery.Text.Quoted

/-!
# JSON documents

Documents with exact whole numbers of 64 bits beside doubles, and their compact
text, without blanks.  The members of an object are in ascending order of their
names.
-/

namespace RowQuery

/-- A number of a document: a whole number between `-2 ^ 63` and `2 ^ 64 - 1`,
or a finite double. -/
inductive JsonNumber where
  | whole (value : Int)
  | double (value : Float)

/-- A document. -/
inductive Json where
  | null
  | bool (value : Bool)
  | number (value : JsonNumber)
  | string (value : String)
  | array (items : List Json)
  | object (members : List (String × Json))
  deriving Inhabited

/-- A whole number never equals a double, whatever their values. -/
def JsonNumber.same : JsonNumber → JsonNumber → Bool
  | .whole a, .whole b => a == b
  | .double a, .double b => a == b
  | _, _ => false

namespace Json

mutual

/-- Two documents are equal. -/
def same : Json → Json → Bool
  | .null, .null => true
  | .bool a, .bool b => a == b
  | .number a, .number b => a.same b
  | .string a, .string b => a == b
  | .array a, .array b => sameItems a b
  | .object a, .object b => sameMembers a b
  | _, _ => false

/-- Two lists of documents are equal. -/
def sameItems : List Json → List Json → Bool
  | [], [] => true
  | a :: as, b :: bs => same a b && sameItems as bs
  | _, _ => false

/-- Two lists of members are equal. -/
def sameMembers : List (String × Json) → List (String × Json) → Bool
  | [], [] => true
  | (k, a) :: as, (l, b) :: bs => k == l && same a b && sameMembers as bs
  | _, _ => false

end

/-- The empty document `null`. -/
def isNull : Json → Bool
  | .null => true
  | _ => false

end Json

end RowQuery

/-! ## Writing -/

namespace RowQuery.Json

open RowQuery.Number

/-- One character inside a JSON string. -/
def stringChar (c : Char) : List Char :=
  if c = '"' then ['\\', '"']
  else if c = '\\' then ['\\', '\\']
  else if c = '\n' then ['\\', 'n']
  else if c = '\r' then ['\\', 'r']
  else if c = '\t' then ['\\', 't']
  else if c.toNat = 8 then ['\\', 'b']
  else if c.toNat = 12 then ['\\', 'f']
  else if c.toNat < 32 then
    '\\' :: 'u' :: padZeros 4 (Text.hexDigits c.toNat)
  else [c]

/-- A JSON string with its quotes. -/
def stringText (text : String) : String :=
  String.ofList ('"' :: text.toList.flatMap stringChar ++ ['"'])

def numberText : JsonNumber → String
  | .whole value => intText value
  | .double value =>
      if value.isNaN || value.isInf then "null" else Binary64.documentText value

def openBrace : String := "\x7b"

def closeBrace : String := "\x7d"

mutual

/-- The compact text of a document. -/
def toText : Json → String
  | .null => "null"
  | .bool true => "true"
  | .bool false => "false"
  | .number value => numberText value
  | .string value => stringText value
  | .array items => "[" ++ itemsText items ++ "]"
  | .object members => openBrace ++ membersText members ++ closeBrace

/-- Documents with commas between them. -/
def itemsText : List Json → String
  | [] => ""
  | [item] => toText item
  | item :: items => toText item ++ "," ++ itemsText items

/-- Members with commas between them. -/
def membersText : List (String × Json) → String
  | [] => ""
  | [(name, value)] => stringText name ++ ":" ++ toText value
  | (name, value) :: members =>
      stringText name ++ ":" ++ toText value ++ "," ++ membersText members

end

end RowQuery.Json
