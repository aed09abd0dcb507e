import RowQuery.Function
import RowQuery.Term
import RowQuery.Value.Arithmetic
import RowQuery.Value.Part

/-!
# Evaluation of terms

The value of a term on rows.  A NULL that comes from a row is unknown: operators
and calls pass it on, comparisons with it are unknown, and NOT, AND and OR follow
three-valued logic.  A literal NULL keeps the meaning of `IS NULL`.

Of values NULL equals only NULL and has no order, and values of unrelated kinds are
unequal and have no order.
-/

namespace RowQuery

/-! ## Comparison of values -/

namespace Value

/-- A comparison with NULL on one side at least. -/
def compareNull (l : Value) (op : Comparison) (r : Value) : Outcome Bool :=
  if op.isEquality then .ok ((l.isNull && r.isNull) == (op = .eq))
  else .error (.nullOrdering (l.repr ++ " " ++ op.symbol ++ " " ++ r.repr))

/-- A comparison of values whose kinds do not compare. -/
def compareUnrelated (l : Value) (op : Comparison) (r : Value) : Outcome Bool :=
  if op.isEquality then .ok (op = .ne)
  else
    .error (.value ("'" ++ op.symbol ++ "' not supported between " ++ l.kind.name ++
      " and " ++ r.kind.name))

/-- The answer of a comparison. -/
def compareBy (l : Value) (op : Comparison) (r : Value) : Outcome Bool :=
  if l.isNull || r.isNull then compareNull l op r
  else if op.accepts l.kind r.kind then .ok (op.holds (l.compare? r))
  else compareUnrelated l op r

end Value

/-! ## Evaluation -/

/-- What a term is evaluated in: one row for each row parameter, the late-bound
arguments and the functions. -/
structure Scope where
  rows : List Row := []
  arguments : Arguments := []
  functions : FunctionLibrary := {}

/-- The value of a late-bound argument. -/
def argumentValue (arguments : Arguments) (name : String) : Outcome Value :=
  match arguments.get? name with
  | some value => .ok value
  | none => .error (.misuse ("missing keyword argument " ++ Text.quoted name))

namespace Scope

/-- A column of the row under a parameter. -/
def column (scope : Scope) (index : Nat) (name : String) : Outcome Value :=
  match scope.rows[index]? with
  | none => .error (.arity (index + 1) scope.rows.length)
  | some row =>
      match row.get? name with
      | some value => .ok value
      | none => .error (.unmapped ("row has no column " ++ Text.quoted name))

def function (scope : Scope) (name : String) : Outcome Function :=
  match scope.functions.function? name with
  | some f => .ok f
  | none => .error (.unsupported ("unknown function " ++ name))

def method (scope : Scope) (name : String) : Outcome Function :=
  match scope.functions.method? name with
  | some f => .ok f
  | none => .error (.unsupported ("unknown method " ++ name))

end Scope

namespace Term

/-- A NULL that comes from row data. -/
def isUnknown (t : Term) (value : Value) : Bool :=
  value.isNull && t.readsRow

/-- A NULL that stands in the term itself. -/
def isLiteralNull (t : Term) (value : Value) : Bool :=
  value.isNull && !t.readsRow

/-- The comparison of the values of two terms.  It is unknown if one of them is,
unless it asks for a literal NULL. -/
def compareValues (l r : Term) (op : Comparison) (a b : Value) : Outcome Value :=
  let asksForNull := isLiteralNull l a || isLiteralNull r b
  if !asksForNull && (isUnknown l a || isUnknown r b) then .ok .null
  else (a.compareBy op b).map .bool

/-- For each member of a collection, whether it comes from row data. -/
def memberOrigins (collection : Term) (members : List Value) : List Bool :=
  match collection with
  | tuple items => items.map readsRow
  | other => members.map fun _ => other.readsRow

/-- The item is one of the members, each with its origin. -/
def amongMembers (itemUnknown : Bool) (item : Value) (members : List (Value × Bool)) : Value :=
  if itemUnknown then
    if members.any fun (v, ofRow) => v.isNull && !ofRow then .bool true else .null
  else if members.any fun (v, _) => v.looseEq item then .bool true
  else if members.any fun (v, ofRow) => v.isNull && ofRow then .null
  else .bool false

/-- The item is in the collection, or the answer is unknown. -/
def membership (item collection : Term) (value whole : Value) : Outcome Value :=
  if isUnknown collection whole then .ok .null
  else
    match whole with
    | .list members =>
        .ok (amongMembers (isUnknown item value) value
          (members.zip (memberOrigins collection members)))
    | _ =>
        if isUnknown item value then .ok .null
        else (whole.contains value).map .bool

/-- The answer of `not in` from that of `in`. -/
def negateIf (negated : Bool) : Value → Value
  | .bool found => .bool (found != negated)
  | other => other

def negation : Value → Value
  | .null => .null
  | v => .bool !v.truthy

mutual

def eval (scope : Scope) : Term → Outcome Value
  | param index =>
      .error (.misuse ("row parameter " ++ Number.natText index ++ " used as a value"))
  | field (param index) name => scope.column index name
  | field target name => do
      let value ← eval scope target
      if isUnknown target value then .ok .null else value.field name
  | constant value => .ok value
  | argument name => argumentValue scope.arguments name
  | subscript target key => do
      let value ← eval scope target
      if isUnknown target value then .ok .null
      else
        let index ← eval scope key
        if isUnknown key index then .ok .null else value.item index
  | tuple items => do
      let values ← evalItems scope items
      .ok (.list values)
  | call name operands => do
      let f ← scope.function name
      match ← evalKnown scope operands with
      | some values => f.apply name values
      | none => .ok .null
  | method target name operands => do
      let f ← scope.method name
      let value ← eval scope target
      if isUnknown target value then .ok .null
      else
        match ← evalKnown scope operands with
        | some values => f.apply name (value :: values)
        | none => .ok .null
  | compare l op r => do
      let a ← eval scope l
      let b ← eval scope r
      compareValues l r op a b
  | member item collection negated => do
      let value ← eval scope item
      let whole ← eval scope collection
      let found ← membership item collection value whole
      .ok (negateIf negated found)
  | arithmetic l op r => do
      let a ← eval scope l
      if isUnknown l a then .ok .null
      else
        let b ← eval scope r
        if isUnknown r b then .ok .null else a.arithmetic op b
  | all items => evalAll scope false items
  | any items => evalAny scope false items
  | not inner => do
      let value ← eval scope inner
      .ok (negation value)
  | negate inner => do
      let value ← eval scope inner
      if isUnknown inner value then .ok .null else value.negate
  | named inner _ => eval scope inner

/-- The values of several terms. -/
def evalItems (scope : Scope) : List Term → Outcome (List Value)
  | [] => .ok []
  | item :: items => do
      let value ← eval scope item
      let values ← evalItems scope items
      .ok (value :: values)

/-- The values of operands up to the first unknown one. -/
def evalKnown (scope : Scope) : List Term → Outcome (Option (List Value))
  | [] => .ok (some [])
  | item :: items => do
      let value ← eval scope item
      if isUnknown item value then .ok none
      else
        let values ← evalKnown scope items
        .ok (values.map (value :: ·))

/-- Conjunction: the first false part decides, and an unknown one leaves the
answer open. -/
def evalAll (scope : Scope) (undecided : Bool) : List Term → Outcome Value
  | [] => .ok (if undecided then .null else .bool true)
  | item :: items => do
      let value ← eval scope item
      if value.isNull then evalAll scope true items
      else if value.truthy then evalAll scope undecided items
      else .ok (.bool false)

/-- Disjunction: the first true part decides, and an unknown one leaves the
answer open. -/
def evalAny (scope : Scope) (undecided : Bool) : List Term → Outcome Value
  | [] => .ok (if undecided then .null else .bool false)
  | item :: items => do
      let value ← eval scope item
      if value.isNull then evalAny scope true items
      else if value.truthy then .ok (.bool true)
      else evalAny scope undecided items

end

end Term

end RowQuery
