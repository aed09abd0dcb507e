import RowQuery.Proofs.Grouping.Select
import RowQuery.Proofs.Ordinal.Term

/-!
# Positions in GROUP BY and ORDER BY

The rows of a SELECT are grouped by columns whose value is open, so that none of them is an integer.
Constants are not left out of the terms that the rows are sorted by, though: the database takes one
that is written as an integer for the position of an output column.
-/

namespace RowQuery

open RowQuery.Sql BuiltinDialect CompileContext

/-- A term of an ORDER BY clause. -/
structure SortTerm where
  sql : String
  descending : Bool := false
  /-- The value of the term, if the compiler knows it. -/
  constant : Option Value := none

def SortTerm.text (t : SortTerm) : String :=
  if t.descending then t.sql ++ " DESC" else t.sql

namespace BuiltinDialect

/-- The sort term is written for a term of an expression. -/
def SortsBy (d : BuiltinDialect) (bindings : List Binding) (arguments : Arguments)
    (params : List String) (term : SortTerm) (t : Term) : Prop :=
  ∃ p, t.sortKey.1.compile (d.workspace.context bindings arguments) params = .ok p ∧
    term = { sql := ((d.workspace.context bindings arguments).operand p).sql
             descending := t.sortKey.2, constant := p.fragment.constant }

/-- The terms of an ORDER BY clause are written for an order. -/
inductive Sorts (d : BuiltinDialect) (bindings : List Binding) (arguments : Arguments) :
    Order → List SortTerm → Prop
  | keys {b : Binding} {keys : List String} {columns : List Column} (alone : bindings = [b])
      (found : keys.mapM b.table.lookup = .ok columns) :
      Sorts d bindings arguments (.keys keys)
        (columns.map fun column => { sql := d.dialect.quoteName column.name })
  | computed {e : Lambda} {terms : List SortTerm}
      (each : List.Forall₂ (d.SortsBy bindings arguments e.params) terms e.body.entries) :
      Sorts d bindings arguments (.computed e) terms

variable {d : BuiltinDialect} {bindings : List Binding} {arguments : Arguments}

theorem builtIn_context (quotes : d.Quotes bindings) :
    (d.workspace.context bindings arguments).BuiltIn d :=
  ⟨rfl, .inl rfl, quotes⟩

/-! ## Groups -/

/-- A column that the rows are grouped by is the operand of a piece whose value is open. -/
theorem open_of_mem_groups {projection : Projection} {selection : Selection}
    (selected : d.workspace.selection bindings projection arguments = .ok selection)
    {group : String} (member : group ∈ selection.groups) :
    ∃ (e : Lambda) (t : Term) (p : Piece),
      t.compile (d.workspace.context bindings arguments) e.params = .ok p ∧
      p.fragment.constant = none ∧
      group = ((d.workspace.context bindings arguments).operand p).sql := by
  cases projection with
  | all =>
      obtain rfl := Except.ok.inj selected
      cases member
  | keys lists =>
      obtain ⟨picked, -, ended⟩ := Except.bind_eq_ok_iff.1 selected
      obtain rfl := Except.ok.inj ended
      cases member
  | computed e =>
      obtain ⟨fragments, listed, ended⟩ := Except.bind_eq_ok_iff.1 selected
      obtain rfl := Except.ok.inj ended
      dsimp only at member
      split at member
      · obtain ⟨f, filtered, rfl⟩ := List.mem_map.1 member
        obtain ⟨among, kept⟩ := List.mem_filter.1 filtered
        obtain ⟨t, -, p, compiled, same⟩ := columns_mem listed among
        have known : f.constant = p.fragment.constant := by
          rw [same]
          exact operand_constant p
        refine ⟨e, t, p, compiled, ?_, by rw [same]⟩
        simpa [Fragment.isConstant, known] using (Bool.and_eq_true_iff.1 kept).2
      · cases member

theorem isInteger_group (quotes : d.Quotes bindings) {projection : Projection}
    {selection : Selection}
    (selected : d.workspace.selection bindings projection arguments = .ok selection) :
    ∀ group ∈ selection.groups, isInteger group = false := by
  intro group member
  obtain ⟨e, t, p, compiled, open_, rfl⟩ := open_of_mem_groups selected member
  have known := t.integerIfKnown (builtIn_context quotes) rfl compiled
  rwa [Piece.IntegerIfKnown, open_, Option.any_none] at known

/-! ## Sort terms -/

theorem sorts_of_orderText (quotes : d.Quotes bindings) {order : Order} {text : String}
    (ordered : d.workspace.orderText bindings order arguments = .ok text) :
    ∃ terms, text = Text.join ", " (terms.map SortTerm.text) ∧
      d.Sorts bindings arguments order terms := by
  cases order with
  | keys keys =>
      cases bindings with
      | nil => cases ordered
      | cons b rest =>
          cases rest with
          | cons => cases ordered
          | nil =>
              obtain ⟨columns, found, ended⟩ := Except.bind_eq_ok_iff.1 ordered
              obtain rfl := Except.ok.inj ended
              refine ⟨_, congrArg (Text.join ", ") ?_, .keys rfl found⟩
              rw [List.map_map]
              refine List.map_congr_left fun column among => ?_
              obtain ⟨key, -, present⟩ :=
                (Except.mapM_eq_ok_iff.1 found).flip.exists_of_mem among
              exact quotes b (List.mem_singleton_self b) column (Table.mem_of_lookup present)
  | computed e =>
      obtain ⟨stripped, made, rest⟩ := Except.bind_eq_ok_iff.1 ordered
      obtain ⟨fragments, listed, ended⟩ := Except.bind_eq_ok_iff.1 rest
      obtain rfl := Except.ok.inj ended
      unfold Lambda.make at made
      split at made
      · obtain rfl := Except.ok.inj made
        have each : List.Forall₂ (fun f t => ∃ p,
            t.compile (d.workspace.context bindings arguments) e.params = .ok p ∧
            f = { (d.workspace.context bindings arguments).operand p with name := f.name })
            fragments ((e.body.entries.map Term.sortKey).map Prod.fst) := forall₂_columns listed
        rw [List.map_map, List.forall₂_map_right_iff] at each
        let term (place : Fragment × Term) : SortTerm :=
          { sql := place.1.sql, descending := place.2.sortKey.2, constant := place.1.constant }
        refine ⟨(fragments.zip e.body.entries).map term, ?_, .computed (each.map_zip ?_)⟩
        · rw [List.zip_map_right, List.map_map, List.map_map]
          rfl
        · rintro f t ⟨p, compiled, same⟩
          refine ⟨p, compiled, ?_⟩
          rw [same, ← operand_constant p]
      · cases made

theorem isInteger_sortTerm (quotes : d.Quotes bindings) {order : Order} {terms : List SortTerm}
    (sorts : d.Sorts bindings arguments order terms) :
    ∀ term ∈ terms, isInteger term.sql = term.constant.any fun v => v.writesInteger d := by
  intro term member
  cases sorts with
  | keys alone found =>
      obtain ⟨column, -, rfl⟩ := List.mem_map.1 member
      exact isInteger_quoteName column.name
  | computed each =>
      obtain ⟨t, -, p, compiled, rfl⟩ := each.exists_of_mem member
      exact t.sortKey.1.integerIfKnown (builtIn_context quotes) rfl compiled

/-! ## Statements -/

/-- With the standard functions, wherever limits stand, no row of a SELECT is grouped by a position,
but rows are sorted by one wherever a term to sort by is a constant that is written as an integer,
and nowhere else.  The constants are those that the compiler knows, among them what it folds; which
ones are written so depends on the dialect. -/
theorem rows_sort_by_position_iff (d : BuiltinDialect) (style : LimitStyle) {q : Query}
    (wellFormed : ∀ t ∈ q.relation.tables, t.WellFormed d.dialect) (strict : Bool) :
    Memoized.Ensures (d.workspace.withLimits style) d.Asks
      ((d.workspace.withLimits style).select strict q) fun compiled =>
      ∃ relation selection restriction order,
        d.Selects style q compiled relation selection restriction order ∧
        (∀ group ∈ selection.groups, isInteger group = false) ∧
        (q.order = none → order = []) ∧
        ∀ given, q.order = some given → ∃ terms,
          order = ["ORDER BY " ++ Text.join ", " (terms.map SortTerm.text)] ∧
          d.Sorts q.relation.bindings q.arguments given terms ∧
          ∀ term ∈ terms,
            isInteger term.sql = true ↔ ∃ v, term.constant = some v ∧ v.writesInteger d = true := by
  have quotes := quotes_of_wellFormed q.relation.map_table_bindings wellFormed
  refine (ensures_select_parts style strict wellFormed).imp fun compiled parts => ?_
  obtain ⟨relation, selection, restriction, order, selects⟩ := parts
  have ordered := selects.ordered
  unfold Workspace.orderClause at ordered
  refine ⟨relation, selection, restriction, order, selects,
    isInteger_group quotes selects.selected, fun absent => ?_, fun given present => ?_⟩
  · rw [absent] at ordered
    exact (Except.ok.inj ordered).symm
  · rw [present] at ordered
    obtain ⟨text, written, ended⟩ := Except.bind_eq_ok_iff.1 ordered
    obtain ⟨terms, rfl, sorts⟩ := sorts_of_orderText quotes written
    refine ⟨terms, (Except.ok.inj ended).symm, sorts, fun term member => ?_⟩
    rw [isInteger_sortTerm quotes sorts term member, Option.any_eq_true]

section Marked

/-- The sum of two integers, which is folded, a truth value and a digit in a text. -/
def constants : Lambda where
  params := ["s"]
  body := .tuple [.call "desc" [.arithmetic (.constant (.int 1)) .add (.constant (.int 2))],
    .constant (.bool true), .constant (.text "1")]
  bound := by decide

/-- The sales of the regions next to a mark, in the order of constants. -/
def marked : Query where
  relation := .table sales
  projection := .computed
    { params := ["s"]
      body := .tuple [.field (.param 0) "region", .constant (.int 2), total], bound := by decide }
  order := some (.computed constants)

/-- Nothing is grouped by the mark.  The rows are sorted by the third column and, as SQLite has
integers for truth values, by the first one. -/
theorem marked_sort_by_position :
    ∃ compiled, (sqlite.workspace.select false marked).run none = (.ok compiled, none) ∧
      compiled.sql = r#"SELECT "region" AS "region", 2 AS "expr2", SUM("amount") AS "sum" "# ++
        r#"FROM "sales" GROUP BY "region" ORDER BY 3 DESC, 1, '1'"# ∧
      ∃ terms, sqlite.Sorts marked.relation.bindings [] (.computed constants) terms ∧
        terms.map (fun term => some (isInteger term.sql)) = [some true, some true, some false] ∧
        ∀ term ∈ terms, isInteger term.sql = true →
          ∃ v, term.constant = some v ∧ v.writesInteger sqlite = true := by
  have wellFormed : ∀ t ∈ marked.relation.tables, t.WellFormed sqlite.dialect := by
    simp [marked, Relation.tables, wellFormed_sales]
  obtain ⟨compiled, ran, text⟩ : ∃ compiled,
      (sqlite.workspace.select false marked).run none = (.ok compiled, none) ∧
      compiled.sql = r#"SELECT "region" AS "region", 2 AS "expr2", SUM("amount") AS "sum" "# ++
        r#"FROM "sales" GROUP BY "region" ORDER BY 3 DESC, 1, '1'"# := ⟨_, rfl, by decide +kernel⟩
  obtain ⟨-, ensured⟩ := rows_sort_by_position_iff sqlite .trailing wellFormed false none
    RestrictionRequest.recalls_none
  obtain ⟨_, _, _, _, -, -, -, sorted⟩ := ensured compiled (congrArg Prod.fst ran)
  obtain ⟨terms, -, sorts, position⟩ := sorted _ rfl
  refine ⟨compiled, ran, text, terms, sorts, ?_, fun term member => (position term member).1⟩
  let context := sqlite.workspace.context marked.relation.bindings []
  have written : constants.body.entries.map (fun t =>
      (t.sortKey.1.compile context ["s"]).toOption.map fun p =>
        isInteger (context.operand p).sql) = [some true, some true, some false] := by
    decide +kernel
  cases sorts with
  | computed each =>
      rw [← written, ← List.forall₂_eq_eq_eq, List.forall₂_map_left_iff,
        List.forall₂_map_right_iff]
      refine each.imp fun term t sortsBy => ?_
      obtain ⟨p, compiled, rfl⟩ := sortsBy
      exact (congrArg (Option.map fun p => isInteger (context.operand p).sql)
        (Except.toOption_eq_some_iff.2 compiled)).symm

end Marked

end BuiltinDialect

end RowQuery
