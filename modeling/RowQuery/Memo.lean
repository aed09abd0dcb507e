import RowQuery.Lambda

/-!
# Compiled restrictions, remembered

A bounded memo of compiled restrictions.  The key covers all that the SQL depends
on, and the entry used least recently makes room for a new one.
-/

namespace RowQuery

/-- A compiled restriction. -/
structure Restriction where
  sql : String
  /-- The SQL accepts no row too many. -/
  exact : Bool
  deriving DecidableEq

/-- What the SQL of a restriction depends on. -/
structure MemoKey where
  types : String
  dialect : String
  expression : String
  /-- Alias and name of each table. -/
  tables : List (String × String)
  /-- The late-bound arguments, if the expression has any. -/
  arguments : Option String
  deriving DecidableEq

namespace MemoKey

/-- The late-bound arguments as one text. -/
def argumentsText (arguments : Arguments) : String :=
  Text.join ", " (arguments.map fun (name, value) => name ++ "=" ++ value.repr)

/-- The key of an expression on some tables. -/
def make (dialect : Dialect) (e : Lambda) (tables : List (String × String))
    (arguments : Arguments) : MemoKey :=
  { types := dialect.types.name, dialect := dialect.name, expression := e.repr, tables,
    arguments := if e.body.usesArguments then some (argumentsText arguments) else none }

end MemoKey

/-- A memo with its entries, the one used last in front. -/
structure Memo where
  capacity : Nat
  entries : List (MemoKey × Restriction) := []
  hits : Nat := 0
  misses : Nat := 0
  /-- There is room for an entry. -/
  positive : 0 < capacity
  /-- There are no more entries than there is room for. -/
  fits : entries.length ≤ capacity := by simp

namespace Memo

/-- The capacity of a memo when none is given. -/
def defaultCapacity : Nat := 1000

/-- An empty memo; it has room for one entry at least. -/
def ofCapacity (capacity : Nat) : Memo :=
  { capacity := max capacity 1, positive := by omega }

/-- The entry of a key. -/
def find? (m : Memo) (key : MemoKey) : Option Restriction :=
  (m.entries.find? fun entry => entry.1 = key).map Prod.snd

/-- The entries with one in front, as many as there is room for. -/
def placed (capacity : Nat) (key : MemoKey) (value : Restriction)
    (entries : List (MemoKey × Restriction)) : List (MemoKey × Restriction) :=
  ((key, value) :: entries.filter fun entry => entry.1 ≠ key).take capacity

/-- The memo with an entry as the one used last. -/
def store (m : Memo) (key : MemoKey) (value : Restriction) : Memo :=
  { m with
    entries := placed m.capacity key value m.entries
    fits := by simp only [placed, List.length_take]; omega }

/-- The memo without its entries.  The counts stay. -/
def clear (m : Memo) : Memo :=
  { m with entries := [], fits := Nat.zero_le _ }

/-- The memo after one more answer from its entries. -/
def countHit (m : Memo) : Memo :=
  { m with hits := m.hits + 1 }

/-- The memo after one more lookup in vain. -/
def countMiss (m : Memo) : Memo :=
  { m with misses := m.misses + 1 }

/-- The restriction of a key, compiled if it is not remembered.  A failed
compilation leaves the entries as they are. -/
def fetch (m : Memo) (key : MemoKey) (compile : Unit → Outcome Restriction) :
    Outcome Restriction × Memo :=
  match m.find? key with
  | some value => (.ok value, (m.store key value).countHit)
  | none =>
      match compile () with
      | .ok value => (.ok value, m.countMiss.store key value)
      | .error cause => (.error cause, m.countMiss)

end Memo

end RowQuery
