import RowQuery.Sql.Operator
import RowQuery.Text.Quoted

/-!
# Terms

Expression trees over the parameters of a row expression.  A term is compiled to
SQL or evaluated outside of the database; its printed form serves for messages
and as part of cache keys.
-/

namespace RowQuery

/-- An expression tree. -/
inductive Term where
  /-- A row parameter by its position. -/
  | param (index : Nat)
  /-- A field; of a row parameter it is a column. -/
  | field (target : Term) (name : String)
  | constant (value : Value)
  /-- A late-bound argument. -/
  | argument (name : String)
  | subscript (target key : Term)
  | tuple (items : List Term)
  | call (name : String) (operands : List Term)
  | method (target : Term) (name : String) (operands : List Term)
  | compare (l : Term) (op : Comparison) (r : Term)
  /-- The item is among the members of the collection, or is not. -/
  | member (item collection : Term) (negated : Bool)
  | arithmetic (l : Term) (op : Arithmetic) (r : Term)
  | all (items : List Term)
  | any (items : List Term)
  | not (inner : Term)
  | negate (inner : Term)
  /-- A term under an output name. -/
  | named (inner : Term) (name : String)

namespace Term

/-- The function that marks a descending sort key. -/
def descending : String := "desc"

/-- A sort key in descending order. -/
def desc (t : Term) : Term :=
  call descending [t]

/-- The conjunction of two terms; a conjunction on the left takes the parts of
the right side in. -/
def and : Term → Term → Term
  | all ls, all rs => all (ls ++ rs)
  | all ls, r => all (ls ++ [r])
  | l, r => all [l, r]

/-- The disjunction of two terms; a disjunction on the left takes the parts of
the right side in. -/
def or : Term → Term → Term
  | any ls, any rs => any (ls ++ rs)
  | any ls, r => any (ls ++ [r])
  | l, r => any [l, r]

mutual

/-- One more than the highest row parameter, or zero. -/
def arity : Term → Nat
  | param index => index + 1
  | constant _ | argument _ => 0
  | field inner _ | not inner | negate inner | named inner _ => arity inner
  | subscript l r | compare l _ r | member l r _ | arithmetic l _ r => max (arity l) (arity r)
  | method target _ operands => max (arity target) (arities operands)
  | tuple items | call _ items | all items | any items => arities items

/-- The greatest arity among several terms. -/
def arities : List Term → Nat
  | [] => 0
  | item :: items => max (arity item) (arities items)

end

mutual

/-- A late-bound argument occurs. -/
def usesArguments : Term → Bool
  | argument _ => true
  | param _ | constant _ => false
  | field inner _ | not inner | negate inner | named inner _ => usesArguments inner
  | subscript l r | compare l _ r | member l r _ | arithmetic l _ r =>
      usesArguments l || usesArguments r
  | method target _ operands => usesArguments target || anyUsesArguments operands
  | tuple items | call _ items | all items | any items => anyUsesArguments items

/-- A late-bound argument occurs in one of the terms. -/
def anyUsesArguments : List Term → Bool
  | [] => false
  | item :: items => usesArguments item || anyUsesArguments items

end

/-- A row parameter by its name, or by its position if it has none. -/
def paramText (params : List String) (index : Nat) : String :=
  params[index]?.getD ("_" ++ Number.natText index)

mutual

/-- The printed form of a term under the names of its row parameters. -/
def repr (params : List String) : Term → String
  | param index => paramText params index
  | field target name => repr params target ++ "." ++ name
  | constant value => value.repr
  | argument name => "kwargs[" ++ Text.quoted name ++ "]"
  | subscript target key => repr params target ++ "[" ++ repr params key ++ "]"
  | tuple items => "(" ++ Text.join ", " (reprs params items) ++ ",)"
  | call name operands => name ++ "(" ++ Text.join ", " (reprs params operands) ++ ")"
  | method target name operands =>
      repr params target ++ "." ++ name ++ "(" ++ Text.join ", " (reprs params operands) ++ ")"
  | compare l op r => "(" ++ repr params l ++ " " ++ op.symbol ++ " " ++ repr params r ++ ")"
  | member item collection negated =>
      "(" ++ repr params item ++ (if negated then " not in " else " in ") ++
        repr params collection ++ ")"
  | arithmetic l op r =>
      "(" ++ repr params l ++ " " ++ op.symbol ++ " " ++ repr params r ++ ")"
  | all items => "(" ++ Text.join " and " (reprs params items) ++ ")"
  | any items => "(" ++ Text.join " or " (reprs params items) ++ ")"
  | not inner => "(not " ++ repr params inner ++ ")"
  | negate inner => "(-" ++ repr params inner ++ ")"
  | named inner name => repr params inner ++ " as " ++ name

/-- The printed forms of several terms. -/
def reprs (params : List String) : List Term → List String
  | [] => []
  | item :: items => repr params item :: reprs params items

end

def readsRow (t : Term) : Bool :=
  0 < t.arity

theorem arities_append (l r : List Term) : arities (l ++ r) = max (arities l) (arities r) := by
  induction l with
  | nil => simp [arities]
  | cons item items ih => simp [arities, ih, Nat.max_assoc]

end Term

end RowQuery
