import RowQuery.Keyed
import RowQuery.Sql.Fragment

/-!
# Functions

The functions and methods that expressions can call.  A function may have an SQL
form, a way to compute it outside of the database, or both.  Without SQL form it
weakens the restriction in which it stands; without the other it cannot be
computed on rows or on constants.
-/

namespace RowQuery

/-- The SQL of a call. -/
structure Rendering where
  fragment : Sql.Fragment
  /-- The SQL agrees with the call; otherwise it is true more often. -/
  exact : Bool := true

/-- The column type of computed values of a kind. -/
def resultType? (types : TypeCatalog) (kind : Kind) : Option ColumnType :=
  let request : TypeRequest := if kind = .int then { bytes := some 8 } else {}
  (types.resolve kind request).toOption

def typed? (dialect : Dialect) (sql : String) (kind : Kind) : Option Rendering :=
  (resultType? dialect.types kind).map fun type => { fragment := { sql, kind, type } }

/-- Computed SQL with kind and type of another fragment. -/
def typedLike (sql : String) (f : Sql.Fragment) : Rendering :=
  { fragment := { sql, kind := f.kind, type := f.type } }

/-- A function that expressions can call.  The target of a method is its first
operand. -/
structure Function where
  /-- The SQL form of a call on compiled operands, if there is one. -/
  render : Option (Dialect → List Sql.Fragment → Option Rendering) := none
  /-- The result of a call on values. -/
  compute : Option (List Value → Outcome Value) := none
  /-- The function is computed over all rows. -/
  aggregate : Bool := false
  /-- Two calls with the same operands may differ. -/
  isVolatile : Bool := false

namespace Function

/-- A call on constants is a constant. -/
def isFoldable (f : Function) : Bool :=
  f.compute.isSome && !f.isVolatile && !f.aggregate

/-- The SQL form of a call. -/
def render? (f : Function) (dialect : Dialect) (operands : List Sql.Fragment) :
    Option Rendering :=
  f.render.bind fun render => render dialect operands

/-- The result of a call on the values of one row. -/
def apply (f : Function) (name : String) (operands : List Value) : Outcome Value :=
  if f.aggregate then
    .error (.unsupported ("aggregate " ++ name ++ " cannot be evaluated per row"))
  else
    match f.compute with
    | some compute => compute operands
    | none => .error (.unsupported (name ++ " has no in-process evaluator"))

end Function

/-- The functions in reach of expressions. -/
structure FunctionLibrary where
  methods : Keyed Function := []
  builtins : Keyed Function := []
  custom : Keyed Function := []

namespace FunctionLibrary

/-- The library with a custom function. -/
def register (l : FunctionLibrary) (name : String) (f : Function) : FunctionLibrary :=
  { l with custom := l.custom.put name f }

def registerMethod (l : FunctionLibrary) (name : String) (f : Function) : FunctionLibrary :=
  { l with methods := l.methods.put name f }

def method? (l : FunctionLibrary) (name : String) : Option Function :=
  l.methods.get? name

/-- The function of a name.  Built-in functions come first and are found in any
case. -/
def function? (l : FunctionLibrary) (name : String) : Option Function :=
  (l.builtins.get? name).orElse fun _ =>
    (l.builtins.get? (Text.asciiLower name)).orElse fun _ => l.custom.get? name

end FunctionLibrary

end RowQuery
