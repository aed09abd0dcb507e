import RowQuery.Compile

/-!
# Relations

A table or a tree of joined tables, and the FROM clause of a statement on it.  The
row parameters of expressions over a relation are its tables from left to right.
Names that have to be fresh are a base name as it is, or else with the first free number
behind it, counted from two.
-/

namespace RowQuery

/-! ## Fresh names -/

namespace Sql

/-- The candidates for a name, one after the other. -/
def nameCandidate (base : String) : Nat → String
  | 0 => base
  | n + 1 => base ++ "_" ++ Number.natText (n + 2)

/-- The first free candidate from `n` on, after at most `tries` that are taken. -/
def firstFree (taken : List String) (base : String) (n : Nat) : Nat → String
  | 0 => nameCandidate base n
  | tries + 1 =>
      if taken.contains (nameCandidate base n) then firstFree taken base (n + 1) tries
      else nameCandidate base n

/-- A name that is not taken.  Among one candidate more than there are taken names
one is free. -/
def freshName (taken : List String) (base : String) : String :=
  firstFree taken base 0 taken.length

/-- Fresh names for several bases, each taken from then on. -/
def freshNames : List String → List String → List String
  | _, [] => []
  | taken, base :: bases =>
      let name := freshName taken base
      name :: freshNames (name :: taken) bases

end Sql

/-! ## Relations -/

/-- The rows that a join keeps without partner. -/
inductive JoinKind where
  | inner
  | left
  | right
  deriving DecidableEq

def JoinKind.keyword : JoinKind → String
  | inner => "INNER JOIN"
  | left => "LEFT JOIN"
  | right => "RIGHT JOIN"

/-- A table or a tree of joined tables. -/
inductive Relation where
  | table (t : Table)
  /-- A join over an expression on all its tables, or over the references between
  its two sides. -/
  | join (kind : JoinKind) (left right : Relation) (path : Option Lambda)

namespace Relation

/-- The tables from left to right. -/
def tables : Relation → List Table
  | table t => [t]
  | join _ left right _ => left.tables ++ right.tables

/-- The number of tables. -/
def size : Relation → Nat
  | table _ => 1
  | join _ left right _ => left.size + right.size

/-- The relation has more than one table. -/
def isJoin : Relation → Bool
  | table _ => false
  | join .. => true

theorem length_tables (r : Relation) : r.tables.length = r.size := by
  induction r with
  | table t => rfl
  | join kind left right path ihLeft ihRight => simp [tables, size, ihLeft, ihRight]

/-- The tables under their names, numbered from the second use of a name on. -/
def bindings (r : Relation) : List Binding :=
  ((Sql.freshNames [] (r.tables.map Table.name)).zip r.tables).map fun (label, t) =>
    ⟨label, t⟩

end Relation

namespace Workspace

variable (w : Workspace)

def tableText (b : Binding) : String :=
  if b.label = b.table.name then b.table.quotedName
  else b.table.quotedName ++ " AS " ++ w.dialect.quoteName b.label

def qualifiedText (b : Binding) (column : Column) : String :=
  w.dialect.quoteName b.label ++ "." ++ column.quotedName

/-- The columns of a reference as a condition, if both exist. -/
def referenceTerm (near far : Binding) (r : Reference) : Option String := do
  let n ← near.table.column? r.near
  let f ← far.table.column? r.far
  return w.dialect.compare (w.qualifiedText near n) .eq (w.qualifiedText far f)

/-- The condition of all references from one table to another, if there are
any. -/
def referencePath (near far : Binding) : Option String :=
  match (near.table.referencesTo far.table.name).filterMap (w.referenceTerm near far) with
  | [] => none
  | [term] => some term
  | terms => some (Text.bracketed (Text.join " AND " terms))

/-- The condition between two tables, from whichever of them refers to the
other. -/
def pathBetween (l r : Binding) : Option String :=
  (w.referencePath l r).orElse fun _ => w.referencePath r l

/-- The names of the tables of a join for a message. -/
def tableNames (bindings : List Binding) : String :=
  Text.join ", " (bindings.map fun b => b.table.name)

def joinCondition (arguments : Arguments) (path : Option Lambda) (near far : List Binding) :
    Memoized String :=
  match path with
  | some e => do
      let compiled ← w.restriction (near ++ far) e arguments
      if compiled.exact then return compiled.sql
      else throw (.inexact ("join path " ++ e.toText ++ " cannot be expressed exactly in SQL"))
  | none =>
      match near.findSome? fun l => far.findSome? (w.pathBetween l) with
      | some condition => return condition
      | none => throw (.noPath (tableNames near) (tableNames far))

/-- Two sides of a join.  Where there is no right join the sides change places. -/
def joinText (kind : JoinKind) (left right : Relation) (leftText rightText condition : String) :
    String :=
  let behind (r : Relation) (text : String) : String :=
    if r.isJoin then Text.bracketed text else text
  if kind = .right && !w.dialect.hasRightJoin then
    spaced [rightText, JoinKind.left.keyword, behind left leftText, "ON", condition]
  else spaced [leftText, kind.keyword, behind right rightText, "ON", condition]

/-- The text of a relation in a FROM clause. -/
def relationText (arguments : Arguments) : Relation → List Binding → Memoized String
  | .table t, bindings => return (bindings.head?.map w.tableText).getD t.quotedName
  | .join kind left right path, bindings => do
      let near := bindings.take left.size
      let far := bindings.drop left.size
      let leftText ← relationText arguments left near
      let rightText ← relationText arguments right far
      let condition ← w.joinCondition arguments path near far
      return w.joinText kind left right leftText rightText condition

end Workspace

end RowQuery
