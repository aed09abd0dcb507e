import RowQuery.Query

/-!
# SELECT statements

A query as SQL.  A restriction without exact SQL form is allowed as long as the
rows can be filtered again: not together with a limit, an aggregate or DISTINCT,
and not in strict queries.
-/

namespace RowQuery

open RowQuery.Number

/-- The columns of a SELECT. -/
structure Selection where
  fields : List String
  columns : List OutputColumn
  /-- The terms that are no aggregates, next to some that are. -/
  groups : List String := []
  aggregate : Bool := false

/-- A candidate for an output name: the name and the label of its table. -/
abbrev NameCandidate := String × Option String

/-- The name of a candidate occurs only once. -/
def isSingle (candidates : List NameCandidate) (candidate : NameCandidate) : Bool :=
  candidates.countP (fun other => other.1 = candidate.1) = 1

/-- The name of a candidate with the label of its table in front, or with its
position behind. -/
def longName (candidate : NameCandidate) (position : Nat) : String :=
  match candidate with
  | (name, some label) => label ++ "_" ++ name
  | (name, none) => name ++ "_" ++ natText position

def outputNamesFrom (all : List NameCandidate) (taken : List String) (position : Nat) :
    List NameCandidate → List String
  | [] => []
  | candidate :: rest =>
      if isSingle all candidate then
        candidate.1 :: outputNamesFrom all taken (position + 1) rest
      else
        let name := Sql.freshName taken (longName candidate position)
        name :: outputNamesFrom all (name :: taken) (position + 1) rest

/-- Distinct names for the candidates.  A name that occurs once stays. -/
def outputNames (candidates : List NameCandidate) : List String :=
  outputNamesFrom candidates ((candidates.filter (isSingle candidates)).map Prod.fst) 1 candidates

/-- The table and the key of a plain column. -/
def Term.plainColumn? : Term → Option (Nat × String)
  | .field (.param index) key => some (index, key)
  | .named inner _ => inner.plainColumn?
  | _ => none

/-- A term of a sort order and whether it is descending. -/
def Term.sortKey : Term → Term × Bool
  | .call name [inner] => if name = descending then (inner, true) else (.call name [inner], false)
  | t => (t, false)

namespace Workspace

variable (w : Workspace)

/-- A column, qualified if there are several tables. -/
def columnText (bindings : List Binding) (b : Binding) (c : Column) : String :=
  if bindings.length > 1 then w.qualifiedText b c else c.quotedName

/-- A field under an output name. -/
def fieldText (sql name : String) : String :=
  sql ++ " AS " ++ w.dialect.quoteName name

/-- Plain columns, each with the position and the binding of its table. -/
def columnSelection (bindings : List Binding) (picked : List (Nat × Binding × Column)) :
    Selection :=
  let names := outputNames (picked.map fun (_, b, c) => (c.key, some b.label))
  let named := picked.zip names
  { fields := named.map fun ((_, b, c), name) =>
      let sql := w.columnText bindings b c
      if name = c.name then sql else w.fieldText sql name
    columns := named.map fun ((i, _, c), name) => .ofColumn name i c }

def allColumns (bindings : List Binding) : List (Nat × Binding × Column) :=
  (bindings.zipIdx).flatMap fun (b, i) => b.table.columns.map fun c => (i, b, c)

/-- The columns of some keys. -/
def columnsOfKeys (i : Nat) (b : Binding) (keys : List String) :
    Outcome (List (Nat × Binding × Column)) :=
  keys.mapM fun key => do
    let c ← b.table.lookup key
    .ok (i, b, c)

/-- The columns of one list of keys for each table. -/
def columnsOfLists (bindings : List Binding) (lists : List (List String)) :
    Outcome (List (Nat × Binding × Column)) :=
  if lists.length ≠ bindings.length then .error (.arity bindings.length lists.length)
  else do
    let picked ← (bindings.zipIdx.zip lists).mapM fun ((b, i), keys) => columnsOfKeys i b keys
    .ok picked.flatten

/-- The table and the key of a term, if it is a plain column in reach. -/
def sourceOf (bindings : List Binding) (t : Term) : Option (Nat × String) :=
  t.plainColumn?.filter fun source => source.1 < bindings.length

/-- The name candidate of a computed column. -/
def computedCandidate (bindings : List Binding) (f : Sql.Fragment)
    (source : Option (Nat × String)) (position : Nat) : NameCandidate :=
  (f.name.getD ("expr" ++ natText position),
    source.bind fun (i, _) => bindings[i]?.map Binding.label)

/-- Computed columns.  If one of them is an aggregate the others group the rows. -/
def computedSelection (bindings : List Binding) (e : Lambda) (arguments : Arguments) :
    Outcome Selection := do
  let fragments ← (w.context bindings arguments).columns e
  let sources := e.body.entries.map (sourceOf bindings)
  let candidates := (fragments.zip sources).zipIdx.map fun ((f, source), i) =>
    computedCandidate bindings f source (i + 1)
  let aggregate := fragments.any Sql.Fragment.aggregate
  let named := (fragments.zip sources).zip (outputNames candidates)
  .ok
    { fields := named.map fun ((f, _), name) => w.fieldText f.sql name
      columns := named.map fun ((f, source), name) =>
        { name, key := source.map Prod.snd, source := source.map Prod.fst,
          kind := f.kind, type := f.type }
      groups :=
        if aggregate then
          (fragments.filter fun f => !f.aggregate && !f.isConstant).map Sql.Fragment.sql
        else []
      aggregate }

/-- The columns of a query. -/
def selection (bindings : List Binding) (projection : Projection) (arguments : Arguments) :
    Outcome Selection :=
  match projection with
  | .all => .ok (w.columnSelection bindings (allColumns bindings))
  | .keys lists => do
      let picked ← columnsOfLists bindings lists
      .ok (w.columnSelection bindings picked)
  | .computed e => w.computedSelection bindings e arguments

/-- The terms of an ORDER BY clause. -/
def orderText (bindings : List Binding) (order : Order) (arguments : Arguments) :
    Outcome String :=
  match order with
  | .keys keys =>
      match bindings with
      | [b] => do
          let columns ← keys.mapM b.table.lookup
          .ok (Text.join ", " (columns.map Column.quotedName))
      | _ =>
          .error (.misuse ("ordering by column names needs a single table; " ++
            "order joins by expression"))
  | .computed e => do
      let terms := e.body.entries.map Term.sortKey
      let stripped ← Lambda.make e.params (.tuple (terms.map Prod.fst))
      let fragments ← (w.context bindings arguments).columns stripped
      .ok (Text.join ", " ((fragments.zip terms).map fun (f, (_, descending)) =>
        if descending then f.sql ++ " DESC" else f.sql))

/-- What rules out a restriction without exact SQL form, if anything does. -/
def blocker (strict : Bool) (q : Query) (selection : Selection) : Option String :=
  if q.strict || strict then some "strict mode"
  else if q.limit.isSome || q.offset.isSome then some "LIMIT/OFFSET"
  else if selection.aggregate then some "an aggregate projection"
  else if q.distinct then some "DISTINCT"
  else none

/-- The WHERE clause of a restriction, unless it is always true. -/
def whereClause (sql : String) : List String :=
  if sql = w.dialect.truthClause true then [] else ["WHERE " ++ sql]

/-- The WHERE clause of a query, and whether it is exact. -/
def queryRestriction (strict : Bool) (bindings : List Binding) (q : Query)
    (selection : Selection) : Memoized (List String × Bool) :=
  match q.restriction with
  | none => return ([], true)
  | some e => do
      let compiled ← w.restriction bindings e q.arguments
      if !compiled.exact then
        if let some blocker := blocker strict q selection then
          throw (.inexact ("restriction " ++ e.toText ++
            " is not exactly representable in SQL, which " ++ blocker ++ " requires"))
      return (w.whereClause compiled.sql, compiled.exact)

/-- Limits stand behind SELECT. -/
def limitsInFront : Bool :=
  w.dialect.limitStyle = .top

/-- The limit behind SELECT. -/
def topClause (q : Query) : List String :=
  match q.limit with
  | some limit => if w.limitsInFront then ["TOP " ++ natText limit] else []
  | none => []

/-- The limit and offset behind the statement. -/
def limitClause (q : Query) : List String :=
  if w.limitsInFront then [] else (w.dialect.limitClause q.limit q.offset).toList

def groupClause (selection : Selection) : List String :=
  if selection.groups.isEmpty then [] else ["GROUP BY " ++ Text.join ", " selection.groups]

def orderClause (bindings : List Binding) (q : Query) : Outcome (List String) :=
  match q.order with
  | none => .ok []
  | some order => do
      let text ← w.orderText bindings order q.arguments
      .ok ["ORDER BY " ++ text]

/-- The SELECT statement of a query. -/
def select (strict : Bool) (q : Query) : Memoized CompiledQuery := do
  let bindings := q.relation.bindings
  let relation ← w.relationText q.arguments q.relation bindings
  let selection ← w.selection bindings q.projection q.arguments
  if w.limitsInFront && q.offset.isSome then
    throw (.unsupported (w.dialect.name ++ " has no OFFSET"))
  let (restriction, exact) ← w.queryRestriction strict bindings q selection
  let order ← w.orderClause bindings q
  let clauses :=
    ["SELECT"] ++ (if q.distinct then ["DISTINCT"] else []) ++ w.topClause q ++
    [Text.join ", " selection.fields, "FROM " ++ relation] ++ restriction ++
    groupClause selection ++ order ++ w.limitClause q
  return { sql := spaced clauses, exact, columns := selection.columns }

end Workspace

end RowQuery
