import RowQuery.Toml

/-!
# Records in TOML documents

A record is a table with fields of given names, of which others are ignored.  It
may also be an array of its fields in their order.
-/

namespace RowQuery.Toml

open RowQuery.Number

/-- The fields of a record. -/
inductive Record where
  | named (members : List (String × Toml))
  | listed (items : List Toml)

/-- The value as a record. -/
def record? : Toml → Option Record
  | table _ members => some (.named members)
  | array items | tables items => some (.listed items)
  | _ => none

/-- The value as a list. -/
def items? : Toml → Option (List Toml)
  | array items | tables items => some items
  | _ => none

/-- The value as a text. -/
def text? : Toml → Option String
  | string s => some s
  | _ => none

/-- The value as a truth value. -/
def truth? : Toml → Option Bool
  | boolean b => some b
  | _ => none

/-- The value as a natural number up to a limit. -/
def natural? (limit : Nat) : Toml → Option Nat
  | integer i => if 0 ≤ i.toInt ∧ i.toInt.toNat ≤ limit then some i.toInt.toNat else none
  | _ => none

/-- The value has no parts. -/
def isEmpty : Toml → Bool
  | table _ members => members.isEmpty
  | array items | tables items => items.isEmpty
  | _ => false

/-- The value as one of several names.  A name may also stand as the only key of a
table, above nothing. -/
def choice? : Toml → Option String
  | string s => some s
  | table _ [(name, value)] => if value.isEmpty then some name else none
  | _ => none

/-- The value as a list of which every item can be read. -/
def list? {α : Type} (read : Toml → Option α) (value : Toml) : Option (List α) :=
  value.items?.bind fun items => items.mapM read

namespace Record

def field? (name : String) (position : Nat) : Record → Option Toml
  | named members => (members.find? fun member => member.1 = name).map Prod.snd
  | listed items => items[position]?

/-- A field that has to be there. -/
def required {α : Type} (r : Record) (name : String) (position : Nat)
    (read : Toml → Option α) : Option α :=
  (r.field? name position).bind read

def withDefault {α : Type} (r : Record) (name : String) (position : Nat)
    (read : Toml → Option α) (default : α) : Option α :=
  match r.field? name position with
  | some value => read value
  | none => some default

/-- A field that a table may leave out. -/
def optional {α : Type} (r : Record) (name : String) (position : Nat)
    (read : Toml → Option α) : Option (Option α) :=
  match r, r.field? name position with
  | _, some value => (read value).map some
  | named _, none => some none
  | listed _, none => none

end Record

end RowQuery.Toml
