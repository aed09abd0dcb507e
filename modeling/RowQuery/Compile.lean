import RowQuery.Compile.Piece
import RowQuery.Memo

/-!
# Compilation of terms

From terms to SQL.  A condition without exact SQL form is replaced by a weaker
one, so that the SQL selects all rows that the expression accepts and perhaps
more.  Where more would be wrong (under NOT, in operands, in values) only exact
SQL will do.  Restrictions are compiled without aggregates, and through a memo
where there is one.
-/

namespace RowQuery

namespace Term

/-- The fault of a row parameter outside of a column. -/
def bareParam (params : List String) (index : Nat) : Fault :=
  .misuse ("row parameter " ++ paramText params index ++ " used as a value")

/-- The printed form of a comparison without brackets. -/
def shownComparison (params : List String) (l : Term) (op : Comparison) (r : Term) : String :=
  l.repr params ++ " " ++ op.symbol ++ " " ++ r.repr params

mutual

/-- The piece of a term under the names of its row parameters. -/
def compile (c : CompileContext) (params : List String) : Term → Walk Piece
  | param index => .error (.fault (bareParam params index))
  | field (param index) key => c.column index key
  | field target name => do
      let base ← compile c params target >>= Piece.exactly
      c.field base name
  | constant value => c.literal value
  | argument name => c.folded (argumentValue c.arguments name)
  | subscript target key => do
      let whole ← compile c params target >>= Piece.exactly
      let index ← compile c params key >>= Piece.exactly
      match whole.fragment.constant, index.fragment.constant with
      | some v, some k => c.folded (v.item k)
      | _, _ => .error .noForm
  | tuple items => do
      let values ← compileConstants c params items
      c.literal (.list values)
  | call name operands => do
      let f ← Walk.ofOption (c.functions.function? name)
      let pieces ← compileItems c params operands
      c.call name f pieces
  | method target name operands => do
      let f ← Walk.ofOption (c.functions.method? name)
      let first ← compile c params target >>= Piece.exactly
      let pieces ← compileItems c params operands
      c.call name f (first :: pieces)
  | compare l op r => do
      let left ← compile c params l >>= Piece.exactly
      let right ← compile c params r >>= Piece.exactly
      c.compare (shownComparison params l op r) left op right
  | member item (tuple members) negated => do
      let needle ← compile c params item >>= Piece.exactly
      let pieces ← compileItems c params members
      match pieces.mapM fun p => p.fragment.constant with
      | some values => do
          let collection ← c.literal (.list values)
          c.contains needle collection negated
      | none => c.member needle pieces negated
  | member item collection negated => do
      let needle ← compile c params item >>= Piece.exactly
      let whole ← compile c params collection >>= Piece.exactly
      c.contains needle whole negated
  | arithmetic l op r => do
      let left ← compile c params l >>= Piece.exactly
      let right ← compile c params r >>= Piece.exactly
      c.arithmetic left op right
  | all items => do
      let parts ← compileParts c params items
      c.junction parts true
  | any items => do
      let parts ← compileParts c params items
      c.junction parts false
  | not inner => do
      let piece ← compile c params inner >>= c.asCondition >>= Piece.exactly
      c.negation piece
  | negate inner => do
      let piece ← compile c params inner >>= Piece.exactly
      c.negative piece
  | named inner name => do
      let piece ← compile c params inner
      .ok { piece with fragment := piece.fragment.named name }

/-- The exact pieces of several terms. -/
def compileItems (c : CompileContext) (params : List String) : List Term → Walk (List Piece)
  | [] => .ok []
  | item :: items => do
      let piece ← compile c params item >>= Piece.exactly
      let pieces ← compileItems c params items
      .ok (piece :: pieces)

def compileConstants (c : CompileContext) (params : List String) :
    List Term → Walk (List Value)
  | [] => .ok []
  | item :: items => do
      let piece ← compile c params item >>= Piece.exactly
      let value ← Walk.ofOption piece.fragment.constant
      let values ← compileConstants c params items
      .ok (value :: values)

/-- The conditions of several terms; those without SQL form are missing. -/
def compileParts (c : CompileContext) (params : List String) :
    List Term → Walk (List (Option Piece))
  | [] => .ok []
  | item :: items => do
      let part ←
        match compile c params item >>= c.asCondition with
        | .ok piece => .ok (some piece)
        | .error .noForm => .ok none
        | .error (.fault cause) => .error (.fault cause)
      let parts ← compileParts c params items
      .ok (part :: parts)

end

/-- The terms of a list of columns. -/
def entries : Term → List Term
  | tuple items => items
  | single => [single]

/-- The last part of a dotted name. -/
def lastName (name : String) : String :=
  String.ofList ((Text.splitAll '.' name.toList).getLast?.getD [])

/-- The name of the output column of an unnamed term at a position. -/
def outputName (t : Term) (index : Nat) : String :=
  match t with
  | field _ name => name
  | call name _ | method _ name _ => lastName name
  | _ => "expr" ++ Number.natText (index + 1)

end Term

namespace CompileContext

variable (c : CompileContext)

/-- Refuse an expression that takes another number of rows. -/
def checkArity (e : Lambda) : Outcome Unit :=
  if e.arity = c.bindings.length then .ok ()
  else .error (.arity e.arity c.bindings.length)

/-- A restriction.  It never fails for want of an SQL form: what has none
becomes TRUE, and the result is not exact. -/
def restrict (e : Lambda) : Outcome Rendering := do
  c.checkArity e
  match e.body.compile c e.params >>= c.asCondition with
  | .ok piece => .ok { fragment := piece.fragment, exact := piece.exact }
  | .error (.fault cause) => .error cause
  | .error .noForm =>
      match c.truth true with
      | .ok piece => .ok { fragment := piece.fragment, exact := false }
      | .error _ => .error (.unsupported "no boolean type")

/-- The fault of a value without exact SQL form. -/
def inexactValue (e : Lambda) (t : Term) : Fault :=
  .inexact (t.repr e.params ++ " in " ++ e.toText ++ " cannot be expressed exactly in SQL")

/-- The SQL holds a list of constants. -/
def isList (f : Sql.Fragment) : Bool :=
  match f.constant with
  | some (.list _) => true
  | _ => false

/-- A term of an expression as a value, exactly. -/
def exactValue (e : Lambda) (t : Term) : Outcome Sql.Fragment :=
  match t.compile c e.params with
  | .ok piece =>
      if piece.exact && !isList piece.fragment then .ok (c.operand piece)
      else .error (inexactValue e t)
  | .error .noForm => .error (inexactValue e t)
  | .error (.fault cause) => .error cause

/-- An expression as a value, exactly. -/
def value (e : Lambda) : Outcome Sql.Fragment := do
  c.checkArity e
  c.exactValue e e.body

/-- The fragments of some terms with names for all of them, counted from a
position. -/
def namedValues (e : Lambda) (index : Nat) : List Term → Outcome (List Sql.Fragment)
  | [] => .ok []
  | t :: ts => do
      let fragment ← c.exactValue e t
      let rest ← namedValues e (index + 1) ts
      .ok ({ fragment with name := some (fragment.name.getD (t.outputName index)) } :: rest)

/-- An expression as a list of named columns, exactly. -/
def columns (e : Lambda) : Outcome (List Sql.Fragment) := do
  c.checkArity e
  c.namedValues e 0 e.body.entries

end CompileContext

/-! ## Restrictions -/

/-- A computation that may end in a fault and that leaves its traces in a memo, if
there is one. -/
abbrev Memoized := ExceptT Fault (StateM (Option Memo))

/-- What statements are written in. -/
structure Workspace where
  dialect : Dialect
  functions : FunctionLibrary

namespace Workspace

/-- The context of expressions over some tables. -/
def context (w : Workspace) (bindings : List Binding) (arguments : Arguments) :
    CompileContext :=
  { dialect := w.dialect, functions := w.functions, bindings, arguments }

/-- The restriction of an expression, compiled afresh. -/
def compileRestriction (w : Workspace) (bindings : List Binding) (e : Lambda)
    (arguments : Arguments) : Outcome Restriction := do
  let rendering ← (w.context bindings arguments).restrict e
  if rendering.fragment.aggregate then
    .error (.unsupported ("aggregate in restriction " ++ e.toText))
  else .ok { sql := rendering.fragment.sql, exact := rendering.exact }

/-- The memo key of an expression over some tables. -/
def memoKey (w : Workspace) (bindings : List Binding) (e : Lambda) (arguments : Arguments) :
    MemoKey :=
  .make w.dialect e (bindings.map fun b => (b.label, b.table.name)) arguments

/-- The restriction of an expression. -/
def restriction (w : Workspace) (bindings : List Binding) (e : Lambda)
    (arguments : Arguments) : Memoized Restriction := fun memo =>
  let compile := fun (_ : Unit) => w.compileRestriction bindings e arguments
  match memo with
  | none => (compile (), none)
  | some memo =>
      let (outcome, memo) := memo.fetch (w.memoKey bindings e arguments) compile
      (outcome, some memo)

end Workspace

end RowQuery
