import RowQuery.Compile.Piece
import RowQuery.Proofs.Sql.Expression
import RowQuery.Proofs.Steps
import RowQuery.Proofs.Table.Declared

/-!
# Terms on integers and truth values

The terms whose SQL form keeps its meaning: they are made of columns, constants and
arguments that are integers or truth values.  NULL may stand in a term only where it is
asked for, as an operand of an equality or in a membership test; apart from that it
comes from rows.

In SQL a column is found by its name, and by the label of its table if there are several.
Where tables are declared and labels differ, every row with values of the right kinds can
be looked up in this way.
-/

namespace RowQuery

/-- The number that stands for an integer or a truth value in SQL. -/
def Value.number? : Value → Sql.Number
  | .int i => some i.toInt
  | .bool b => some (if b then 1 else 0)
  | _ => none

/-- The kinds of integers and truth values. -/
def Kind.isIntegral : Kind → Bool
  | .int | .bool => true
  | _ => false

theorem Kind.isIntegral_iff {k : Kind} : k.isIntegral = true ↔ k = .int ∨ k = .bool := by
  cases k <;> simp [isIntegral]

namespace CompileContext

variable (c : CompileContext)

/-- The name of a column in SQL. -/
def columnPath (b : Binding) (column : Column) : List String :=
  if c.bindings.length > 1 then [b.label, column.name] else [column.name]

/-- The columns of integers and truth values of a row in SQL are those of the rows of a
scope. -/
structure Mirrors (scope : Scope) (env : Sql.Expression.Environment) : Prop where
  arguments : scope.arguments = c.arguments
  /-- A cell is NULL or a value of its column. -/
  typed : ∀ {i key b column v}, c.bindings[i]? = some b → b.table.column? key = some column →
    column.kind.isIntegral = true → scope.column i key = .ok v →
      v = .null ∨ v.kind = column.kind
  cells : ∀ {i key b column v}, c.bindings[i]? = some b → b.table.column? key = some column →
    column.kind.isIntegral = true → scope.column i key = .ok v →
      env.columns (c.columnPath b column) = v.number?

end CompileContext

namespace Term

/-- The term is a constant, or an argument with a value. -/
inductive Literal (c : CompileContext) : Term → Value → Prop where
  | constant (v : Value) : Literal c (constant v) v
  | argument {name : String} {v : Value} (given : c.arguments.get? name = some v) :
      Literal c (argument name) v

/-- The members that a collection lists: those of a tuple, or those of a constant list. -/
inductive Lists (c : CompileContext) : Term → List Term → Prop where
  | tuple (members : List Term) : Lists c (tuple members) members
  | values {t : Term} {values : List Value} (literal : Literal c t (.list values)) :
      Lists c t (values.map constant)

/-- The terms on integers and truth values.  Where NULL is asked for, a term may be a
NULL literal instead. -/
inductive Integral (c : CompileContext) : (nullable : Bool) → Term → Prop where
  | null {t : Term} (literal : Literal c t .null) : Integral c true t
  | literal {n : Bool} {t : Term} {v : Value} (literal : Literal c t v)
      (kind : v.kind.isIntegral = true) : Integral c n t
  | column {n : Bool} {i : Nat} {key : String} {b : Binding} {column : Column}
      (bound : c.bindings[i]? = some b) (found : b.table.column? key = some column)
      (kind : column.kind.isIntegral = true) : Integral c n (field (param i) key)
  | arithmetic {n : Bool} {l r : Term} {op : Arithmetic} (noQuotient : op ≠ .div)
      (left : Integral c false l) (right : Integral c false r) :
      Integral c n (arithmetic l op r)
  | negate {n : Bool} {inner : Term} (operand : Integral c false inner) :
      Integral c n (negate inner)
  | compare {n : Bool} {l r : Term} {op : Comparison} (left : Integral c op.isEquality l)
      (right : Integral c op.isEquality r) : Integral c n (compare l op r)
  | among {n negated : Bool} {item collection : Term} {members : List Term}
      (lists : Lists c collection members) (nonempty : members ≠ [])
      (operand : Integral c true item) (each : ∀ t ∈ members, Integral c true t) :
      Integral c n (member item collection negated)
  | all {n : Bool} {items : List Term} (each : ∀ t ∈ items, Integral c false t) :
      Integral c n (all items)
  | any {n : Bool} {items : List Term} (each : ∀ t ∈ items, Integral c false t) :
      Integral c n (any items)
  | not {n : Bool} {inner : Term} (operand : Integral c false inner) :
      Integral c n (not inner)

theorem readsRow_join {l r t : Term} (arity : t.arity = max l.arity r.arity) :
    t.readsRow = (l.readsRow || r.readsRow) := by
  rw [Bool.eq_iff_iff, readsRow, arity]
  simp only [readsRow, decide_eq_true_eq, Bool.or_eq_true]
  omega

theorem readsRow_same {inner t : Term} (arity : t.arity = inner.arity) :
    t.readsRow = inner.readsRow := by
  simp [readsRow, arity]

theorem arities_pos_iff {items : List Term} :
    0 < arities items ↔ ∃ t ∈ items, t.readsRow = true := by
  induction items with
  | nil => simp [arities]
  | cons item items ih =>
      have either : 0 < arities (item :: items) ↔ item.readsRow = true ∨ 0 < arities items := by
        simp only [arities, readsRow, decide_eq_true_eq]
        omega
      rw [either, ih]
      simp

theorem readsRow_items {items : List Term} {t : Term} (arity : t.arity = arities items) :
    t.readsRow = items.any readsRow := by
  rw [Bool.eq_iff_iff, List.any_eq_true, ← arities_pos_iff, readsRow, arity]
  simp

variable {c : CompileContext} {t : Term} {v : Value}

theorem Literal.readsRow (literal : Literal c t v) : t.readsRow = false := by
  cases literal <;> rfl

theorem Literal.eval_eq (literal : Literal c t v) {scope : Scope}
    (arguments : scope.arguments = c.arguments) : t.eval scope = .ok v := by
  cases literal with
  | constant => rw [eval]
  | argument given => rw [eval, argumentValue, arguments, given]

theorem Literal.unique {w : Value} (first : Literal c t v) (second : Literal c t w) : v = w := by
  cases first with
  | constant =>
      cases second
      rfl
  | argument given =>
      cases second with
      | argument given' =>
          rw [given] at given'
          exact Option.some.inj given'

end Term

/-! ## Rows of declared tables -/

namespace CompileContext

variable {c : CompileContext} {scope : Scope}

/-- The columns of the tables are quoted in the way of the dialect. -/
def QuotesColumns (c : CompileContext) : Prop :=
  ∀ b ∈ c.bindings, ∀ column ∈ b.table.columns,
    column.quotedName = c.dialect.quoteName column.name

theorem quotesColumns_of_declared
    (declared : ∀ b ∈ c.bindings, b.table.Declared c.dialect) : c.QuotesColumns :=
  fun b member => (declared b member).quoted

/-- The cell of a row that a name in SQL stands for. -/
def CellAt (c : CompileContext) (scope : Scope) (path : List String) (v : Value) : Prop :=
  ∃ i key b column, c.bindings[i]? = some b ∧ b.table.column? key = some column ∧
    scope.column i key = .ok v ∧ c.columnPath b column = path

/-- Names of columns are not ambiguous. -/
theorem cellAt_unique (declared : ∀ b ∈ c.bindings, b.table.Declared c.dialect)
    (labels : (c.bindings.map Binding.label).Nodup) {path : List String} {v w : Value}
    (first : c.CellAt scope path v) (second : c.CellAt scope path w) : v = w := by
  obtain ⟨i, key, b, column, bound, found, cell, rfl⟩ := first
  obtain ⟨i', key', b', column', bound', found', cell', same⟩ := second
  have index : i < c.bindings.length := (List.getElem?_eq_some_iff.1 bound).1
  have index' : i' < c.bindings.length := (List.getElem?_eq_some_iff.1 bound').1
  have both : i = i' ∧ column'.name = column.name := by
    unfold columnPath at same
    split at same
    · have parts : b'.label = b.label ∧ column'.name = column.name := by simpa using same
      refine ⟨(List.getElem?_inj (by rwa [List.length_map]) labels).1 ?_, parts.2⟩
      rw [List.getElem?_map, List.getElem?_map, bound, bound', Option.map_some, Option.map_some,
        parts.1]
    · exact ⟨by omega, by simpa using same⟩
  obtain ⟨rfl, sameName⟩ := both
  obtain rfl := Option.some.inj (bound.symm.trans bound')
  have names := (declared b (List.mem_of_getElem? bound)).names
  obtain rfl := List.inj_on_of_nodup_map names (Table.mem_of_column? found')
    (Table.mem_of_column? found) sameName
  obtain rfl := (Table.key_of_column? found).symm.trans (Table.key_of_column? found')
  exact Except.ok.inj (cell.symm.trans cell')

/-- Every row with values of the right kinds has its columns in SQL. -/
theorem exists_mirrors (declared : ∀ b ∈ c.bindings, b.table.Declared c.dialect)
    (labels : (c.bindings.map Binding.label).Nodup) (arguments : scope.arguments = c.arguments)
    (typed : ∀ {i key b column v}, c.bindings[i]? = some b → b.table.column? key = some column →
      column.kind.isIntegral = true → scope.column i key = .ok v →
        v = .null ∨ v.kind = column.kind)
    (byZero : Int → Sql.Number) :
    ∃ env : Sql.Expression.Environment, c.Mirrors scope env ∧ env.byZero = byZero := by
  classical
  let columns (path : List String) : Sql.Number :=
    if found : ∃ v, c.CellAt scope path v then found.choose.number? else none
  refine ⟨{ columns, byZero }, ⟨arguments, typed, ?_⟩, rfl⟩
  intro i key b column v bound found _ cell
  have here : c.CellAt scope (c.columnPath b column) v :=
    ⟨i, key, b, column, bound, found, cell, rfl⟩
  have present : ∃ v, c.CellAt scope (c.columnPath b column) v := ⟨v, here⟩
  change (if found : _ then _ else _) = _
  rw [dif_pos present, cellAt_unique declared labels present.choose_spec here]

end CompileContext

end RowQuery
