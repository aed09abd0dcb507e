import RowQuery.Sql.Operator
import RowQuery.Text.Quoted

/-!
# Parts of values

Fields of dates and times, items of lists, texts and documents, and membership.
-/

namespace RowQuery.Value

open RowQuery.Number

def dateField? (d : Calendar.Date) : String → Option Int
  | "year" => some d.year
  | "month" => some d.month
  | "day" => some d.day
  | _ => none

/-- The field of a time of day. -/
def clockField? (c : Calendar.Clock) : String → Option Int
  | "hour" => some c.hour
  | "minute" => some c.minute
  | "second" => some c.second
  | _ => none

/-- The named field of a date or a time. -/
def field? : Value → String → Option Int
  | date d, name => dateField? d name
  | time c, name => clockField? c name
  | datetime m, name => (dateField? m.date name).orElse fun _ => clockField? m.clock name
  | _, _ => none

def field (v : Value) (name : String) : Outcome Value :=
  match v.field? name with
  | some n => .ok (int (Int64.ofInt n))
  | none => .error (.value (v.kind.name ++ " has no attribute " ++ Text.quoted name))

/-- A part of a document: scalars become plain values, the rest stays a
document. -/
def ofJson : Json → Value
  | .null => null
  | .bool b => bool b
  | .number (.whole i) =>
      match word? i with
      | some i => int i
      | none => float (natToFloat i.toNat)
  | .number (.double x) => float x
  | .string s => text s
  | other => json other

/-- The item at an index; negative indices count from the end. -/
def itemAt? {α : Type} (items : List α) (index : Int64) : Option α :=
  let i := if index < 0 then items.length + index.toInt else index.toInt
  if i < 0 then none else items[i.toNat]?

/-- The part of a value under an index or a key. -/
def item? : Value → Value → Option Value
  | list items, int i => itemAt? items i
  | text s, int i => (itemAt? s.toList i).map fun c => text (String.singleton c)
  | json (.object members), text key => (Keyed.get? key members).map ofJson
  | json (.array items), int i => (itemAt? items i).map ofJson
  | _, _ => none

/-- The part of a value under an index or a key. -/
def item (v key : Value) : Outcome Value :=
  match v.item? key with
  | some part => .ok part
  | none => .error (.value (v.repr ++ " has no item " ++ key.repr))

/-- A run of bytes occurs. -/
def containsBytes (piece : List UInt8) : List UInt8 → Bool
  | [] => piece.isEmpty
  | b :: rest => piece.isPrefixOf (b :: rest) || containsBytes piece rest

/-- An item occurs in a collection: as a member of a list or a document, as a
piece of a text or of bytes, or as a name in a document. -/
def contains (collection item : Value) : Outcome Bool :=
  match collection, item with
  | list items, _ => .ok (items.any fun member => member.looseEq item)
  | text s, text piece => .ok (Text.contains piece.toList s.toList)
  | bytes b, bytes piece => .ok (containsBytes piece b)
  | json (.object members), text key => .ok (Keyed.has key members)
  | json (.array items), _ => .ok (items.any fun member => (ofJson member).looseEq item)
  | _, _ =>
      .error (.value ("'in' not supported between " ++ item.kind.name ++ " and " ++
        collection.kind.name))

end RowQuery.Value
