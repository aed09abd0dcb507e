import RowQuery.Function.Standard
import RowQuery.Lambda
import RowQuery.Table

/-!
# Pieces of compiled terms

A compiled term is a fragment of SQL that either agrees with the term on every
row or is true more often, the latter only for conditions.  A term without SQL
form is an obstacle; the nearest conjunction or disjunction around it replaces
it by TRUE.
-/

namespace RowQuery

/-- A table in reach of an expression under the alias that qualifies its
columns. -/
structure Binding where
  label : String
  table : Table

/-- A table under its own name. -/
def Binding.ofTable (t : Table) : Binding :=
  ⟨t.name, t⟩

/-- Why a term has no piece. -/
inductive Obstacle where
  /-- The term has no SQL form. -/
  | noForm
  /-- The term is wrong. -/
  | fault (cause : Fault)

/-- A compilation step. -/
abbrev Walk := Except Obstacle

namespace Walk

/-- A step that fails only for wrong terms. -/
def ofOutcome {α : Type} : Outcome α → Walk α
  | .ok a => .ok a
  | .error cause => .error (.fault cause)

/-- A step that fails for terms without SQL form. -/
def ofOption {α : Type} : Option α → Walk α
  | some a => .ok a
  | none => .error .noForm

end Walk

/-- What terms are compiled in. -/
structure CompileContext where
  dialect : Dialect
  functions : FunctionLibrary
  bindings : List Binding
  arguments : Arguments := []

/-- A compiled term. -/
structure Piece where
  fragment : Sql.Fragment
  /-- The SQL agrees with the term on every row. -/
  exact : Bool := true
  /-- The SQL is a condition and can stand next to AND and OR. -/
  condition : Bool := false

/-- Refuse a piece that is true too often. -/
def Piece.exactly (p : Piece) : Walk Piece :=
  if p.exact then .ok p else .error .noForm

def literalType (types : TypeCatalog) (value : Value) : Outcome ColumnType :=
  match value with
  | .null | .list _ => .ok { name := Text.asciiUpper value.kind.name, family := .varchar }
  | .int _ => types.resolve .int { bytes := some 8 }
  | .decimal d =>
      types.resolve .decimal
        { digits := some (max (max (Number.digitCount d.coefficient) d.places) 1),
          places := some d.places }
  | _ => types.resolve value.kind {}

namespace CompileContext

variable (c : CompileContext)

/-- The type of conditions. -/
def truthType : Walk ColumnType :=
  .ofOption (resultType? c.dialect.types .bool)

/-- The condition that always or never holds. -/
def truth (value : Bool) : Walk Piece := do
  let type ← c.truthType
  .ok { fragment := .literal (c.dialect.truthClause value) (.bool value) type,
        condition := true }

def test (sql : String) (aggregate exact : Bool) : Walk Piece := do
  let type ← c.truthType
  .ok { fragment := { sql, kind := .bool, type, aggregate }, exact, condition := true }

/-- The text of a literal; a list has none. -/
def literalText (type : ColumnType) (value : Value) : Outcome String :=
  match value with
  | .list _ => .ok ""
  | _ => (Codec.ofKind value.kind type).encode c.dialect type value

def literal (value : Value) : Walk Piece :=
  match value with
  | .bool b => c.truth b
  | _ => do
      let type ← .ofOutcome (literalType c.dialect.types value)
      let sql ← .ofOutcome (c.literalText type value)
      .ok { fragment := .literal sql value type }

/-- The result of an operation on constants. -/
def folded (result : Outcome Value) : Walk Piece := do
  let value ← Walk.ofOutcome result
  c.literal value

/-- A column, qualified if there are several tables. -/
def column (index : Nat) (key : String) : Walk Piece :=
  match c.bindings[index]? with
  | none => .error (.fault (.arity (index + 1) c.bindings.length))
  | some binding => do
      let column ← Walk.ofOutcome (binding.table.lookup key)
      let sql :=
        if c.bindings.length > 1 then
          c.dialect.quoteName binding.label ++ "." ++ column.quotedName
        else column.quotedName
      .ok { fragment := { sql, kind := column.kind, type := column.type,
                          name := some column.key } }

def asCondition (p : Piece) : Walk Piece :=
  if p.condition then .ok p
  else
    match p.fragment.constant with
    | some value => c.truth value.truthy
    | none =>
        if p.fragment.kind = .bool then do
          let truth ← Walk.ofOutcome (p.fragment.encode c.dialect (.bool true))
          c.test (c.dialect.compare p.fragment.sql .eq truth) p.fragment.aggregate p.exact
        else .error .noForm

/-- The piece as an operand of something larger. -/
def operand (p : Piece) : Sql.Fragment :=
  match p.fragment.constant with
  | some (.bool b) => { p.fragment with sql := c.dialect.truthLiteral b }
  | _ =>
      if p.condition then { p.fragment with sql := Text.bracketed p.fragment.sql }
      else p.fragment

/-- A test for NULL or for anything else. -/
def nullTest (sql : String) (negated : Bool) : String :=
  sql ++ (if negated then " IS NOT NULL" else " IS NULL")

/-- The comparison in the codec of one side or else of the other. -/
def compareFragments (l : Sql.Fragment) (op : Comparison) (r : Sql.Fragment) : Option String :=
  (l.compare? c.dialect op r).orElse fun _ => r.compare? c.dialect op.swapped l

/-- A comparison of pieces that are not both constant.  A constant stands on the
right, so that it is encoded in the type of the other side. -/
def compareOpen (l : Piece) (op : Comparison) (r : Piece) : Walk Piece := do
  let aggregate := l.fragment.aggregate || r.fragment.aggregate
  if l.fragment.isNull || r.fragment.isNull then
    let other := c.operand (if l.fragment.isNull then r else l)
    c.test (nullTest other.sql (op = .ne)) aggregate true
  else if !op.accepts l.fragment.kind r.fragment.kind then .error .noForm
  else
    let sql ← Walk.ofOption
      (if l.fragment.isConstant then c.compareFragments (c.operand r) op.swapped (c.operand l)
        else c.compareFragments (c.operand l) op (c.operand r))
    c.test sql aggregate true

/-- A comparison; `shown` is its printed form. -/
def compare (shown : String) (l : Piece) (op : Comparison) (r : Piece) : Walk Piece :=
  if (l.fragment.isNull || r.fragment.isNull) && !op.isEquality then
    .error (.fault (.nullOrdering shown))
  else
    match l.fragment.constant, r.fragment.constant with
    | some a, some b => do
        let answer ← Walk.ofOutcome (a.compareBy op b)
        c.truth answer
    | _, _ => c.compareOpen l op r

def arithmetic (l : Piece) (op : Arithmetic) (r : Piece) : Walk Piece :=
  match l.fragment.constant, r.fragment.constant with
  | some a, some b => c.folded (a.arithmetic op b)
  | _, _ => do
      let kind ← Walk.ofOption (op.resultKind l.fragment.kind r.fragment.kind)
      let left := c.operand l
      let right := c.operand r
      let sql ← Walk.ofOption (left.arithmetic? c.dialect op right)
      let type ←
        if kind = left.kind then .ok left.type
        else if kind = right.kind then .ok right.type
        else Walk.ofOption (resultType? c.dialect.types kind)
      .ok { fragment := { sql, kind, type, aggregate := left.aggregate || right.aggregate } }

/-- The operands of a membership test: those that are not NULL, as the members
next to the item. -/
def memberFragments (item : Sql.Fragment) : List Piece → Walk (List Sql.Fragment)
  | [] => .ok []
  | member :: members =>
      if member.fragment.isNull then memberFragments item members
      else if !Comparison.eq.accepts item.kind member.fragment.kind then .error .noForm
      else do
        let rest ← memberFragments item members
        .ok (c.operand member :: rest)

/-- The SQL of a membership test; NULL members are tested for apart. -/
def memberText (item : Sql.Fragment) (members : List String) (hasNull negated : Bool) : String :=
  let test := nullTest item.sql negated
  let among := item.sql ++ (if negated then " NOT IN " else " IN ") ++
    Text.bracketed (Text.join ", " members)
  if members.isEmpty then test
  else if hasNull then
    Text.bracketed (among ++ (if negated then " AND " else " OR ") ++ test)
  else among

/-- A membership test with the members at hand. -/
def member (item : Piece) (members : List Piece) (negated : Bool) : Walk Piece :=
  if members.isEmpty then c.truth negated
  else do
    let left := c.operand item
    let rights ← c.memberFragments left members
    let texts := rights.map fun right => Sql.Fragment.operandText c.dialect left right
    let hasNull := members.any fun m => m.fragment.isNull
    c.test (memberText left texts hasNull negated)
      (left.aggregate || rights.any Sql.Fragment.aggregate) true

/-- A test whether a text occurs in another. -/
def substring (text piece : Piece) (negated : Bool) : Walk Piece := do
  let aggregate := text.fragment.aggregate || piece.fragment.aggregate
  let test ← Walk.ofOption
    (Affix.within.render? false c.dialect (c.operand text) (c.operand piece))
  if !negated then c.test test.fragment.sql aggregate test.exact
  else if test.exact then
    c.test ("NOT " ++ Text.bracketed test.fragment.sql) aggregate true
  else .error .noForm

def contains (item collection : Piece) (negated : Bool) : Walk Piece :=
  match item.fragment.constant, collection.fragment.constant with
  | some value, some whole => do
      let found ← Walk.ofOutcome (whole.contains value)
      c.truth (found != negated)
  | _, some (.list values) => do
      let members ← values.mapM c.literal
      c.member item members negated
  | _, _ =>
      if collection.fragment.kind = .text then c.substring collection item negated
      else .error .noForm

def call (name : String) (f : Function) (operands : List Piece) : Walk Piece :=
  match operands.mapM fun p => p.fragment.constant with
  | some values =>
      if f.isFoldable then c.folded (f.apply name values) else rendered
  | none => rendered
where
  rendered : Walk Piece := do
    let fragments := operands.map c.operand
    let rendering ← Walk.ofOption (f.render? c.dialect fragments)
    let aggregate := f.aggregate || fragments.any Sql.Fragment.aggregate
    .ok { fragment := rendering.fragment.withAggregate aggregate, exact := rendering.exact,
          condition := rendering.fragment.kind = .bool }

/-- The field of a date or a time. -/
def field (base : Piece) (name : String) : Walk Piece :=
  match base.fragment.constant with
  | some value => c.folded (value.field name)
  | none => do
      let part ← Walk.ofOption (DatePart.ofName? name)
      let rendering ← Walk.ofOption (Function.extract? part c.dialect base.fragment)
      .ok { fragment := rendering.fragment.withAggregate base.fragment.aggregate }

/-- The negation of a condition. -/
def negation (p : Piece) : Walk Piece :=
  match p.fragment.constant with
  | some value => c.truth !value.truthy
  | none => c.test ("NOT " ++ Text.bracketed p.fragment.sql) p.fragment.aggregate true

/-- The number or interval with the other sign. -/
def negative (p : Piece) : Walk Piece :=
  match p.fragment.constant with
  | some value => c.folded value.negate
  | none =>
      if p.fragment.kind.isNumeric || p.fragment.kind = .interval then
        .ok { fragment := { sql := "(-" ++ p.fragment.sql ++ ")", kind := p.fragment.kind,
                            type := p.fragment.type, aggregate := p.fragment.aggregate } }
      else .error .noForm

/-- The SQL of a part of a conjunction or disjunction; a part without SQL form
is TRUE. -/
def partText : Option Piece → String
  | some p => p.fragment.sql
  | none => c.dialect.truthClause true

/-- The conjunction or disjunction of parts, some of which may have no SQL
form. -/
def junction (parts : List (Option Piece)) (conjunction : Bool) : Walk Piece :=
  match parts with
  | [] => c.truth conjunction
  | _ =>
      let texts := parts.map c.partText
      let sql :=
        match texts with
        | [text] => text
        | _ => Text.bracketed (Text.join (if conjunction then " AND " else " OR ") texts)
      c.test sql (parts.any fun part => part.any fun p => p.fragment.aggregate)
        (parts.all fun part => part.any Piece.exact)

end CompileContext

end RowQuery
