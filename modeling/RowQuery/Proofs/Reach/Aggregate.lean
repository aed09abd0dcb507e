import RowQuery.Proofs.Reach.Condition

/-!
# Aggregates are marked

A fragment that calls an aggregate is marked as one.  So no condition calls an aggregate, whether
it restricts rows, joins tables or decides which rows change, and a selection that calls one
counts as an aggregate and is not made with a restriction that accepts rows too many.
-/

namespace RowQuery

open RowQuery.Sql

namespace Sql

/-- The name of an aggregate. -/
def Lexeme.isAggregate : Lexeme → Bool
  | word letters => isAggregateWord letters
  | text _ | name _ | symbol _ => false

theorem Reach.Allows.isAggregate_eq {reach : Reach} {lexeme : Lexeme}
    (allows : reach.Allows false lexeme) : lexeme.isAggregate = false := by
  cases lexeme with
  | word letters =>
      exact Bool.eq_false_iff.2 fun aggregate => Bool.false_ne_true (allows.2 aggregate)
  | text | name | symbol => rfl

end Sql

namespace BuiltinDialect

/-- The text can be read, and outside of quotation marks it has no name of an aggregate, so that it
calls none. -/
def NoAggregate (d : BuiltinDialect) (sql : String) : Prop :=
  (d.lexemes? sql).any (fun lexemes => lexemes.all fun lexeme => !lexeme.isAggregate) = true

instance (d : BuiltinDialect) (sql : String) : Decidable (d.NoAggregate sql) :=
  inferInstanceAs (Decidable (_ = true))

variable {d : BuiltinDialect} {reach : Reach} {sql : String} {bindings : List Binding}

theorem noAggregate_iff : d.NoAggregate sql ↔
    ∃ lexemes, d.lexemes? sql = some lexemes ∧ ∀ lexeme ∈ lexemes, lexeme.isAggregate = false := by
  simp [NoAggregate, Option.any_eq_true]

theorem InReach.noAggregate (inReach : d.InReach reach false sql) : d.NoAggregate sql := by
  obtain ⟨lexemes, found, allowed, -⟩ := inReach
  exact noAggregate_iff.2
    ⟨lexemes, found, fun lexeme member => (allowed lexeme member).isAggregate_eq⟩

/-! ## Clauses of conditions -/

theorem noAggregate_whereClause (inReach : d.InReach reach false sql) :
    ∀ clause ∈ d.workspace.whereClause sql, d.NoAggregate clause := by
  have opened : d.opened? false 0 "WHERE " = some 0 := by cases d <;> rfl
  have clause : d.InReach reach false ("WHERE " ++ sql) := .opening opened inReach
  unfold Workspace.whereClause
  split
  · simp
  · simpa using clause.noAggregate

theorem ensures_exactWhere {t : Table} (quotes : d.Quotes [.ofTable t]) (restriction : Option Lambda)
    (arguments : Arguments) (statement : String) :
    Memoized.Ensures d.workspace d.Asks
      (d.workspace.exactWhere t restriction arguments statement)
      fun clauses => ∀ clause ∈ clauses, d.NoAggregate clause := by
  unfold Workspace.exactWhere
  cases restriction with
  | none => exact Memoized.ensures_pure (by simp)
  | some e =>
      refine (ensures_restriction d.regular_workspace quotes e arguments).bind fun found inReach => ?_
      split
      · exact Memoized.ensures_pure (noAggregate_whereClause inReach)
      · exact Memoized.ensures_throw _

/-- The clause has no aggregate, and next to one it is exact. -/
theorem ensures_queryRestriction (quotes : d.Quotes bindings) (strict : Bool) (q : Query)
    (selection : Selection) :
    Memoized.Ensures d.workspace d.Asks
      (d.workspace.queryRestriction strict bindings q selection)
      fun (clauses, exact) => (∀ clause ∈ clauses, d.NoAggregate clause) ∧
        (selection.aggregate = true → exact = true) := by
  unfold Workspace.queryRestriction
  split
  · exact Memoized.ensures_pure ⟨by simp, fun _ => rfl⟩
  · rename_i e _
    refine (ensures_restriction d.regular_workspace quotes e q.arguments).bind fun found inReach => ?_
    have clauses := noAggregate_whereClause inReach
    cases exactness : found.exact with
    | true => exact Memoized.ensures_pure ⟨clauses, fun _ => rfl⟩
    | false =>
        cases blocked : Workspace.blocker strict q selection with
        | some reason => exact Memoized.ensures_throw_bind _ _
        | none =>
            refine Memoized.ensures_pure ⟨clauses, fun aggregate => ?_⟩
            simp only [Workspace.blocker, aggregate, if_true] at blocked
            split_ifs at blocked

/-! ## Selections -/

theorem inReach_columnText {b : Binding} (quotes : d.Quotes bindings) (member : b ∈ bindings)
    {column : Column} (present : column ∈ b.table.columns) :
    d.InReach (.ofBindings bindings) false (d.workspace.columnText bindings b column) := by
  have label : b.label ∈ (Reach.ofBindings bindings).labels := List.mem_map_of_mem member
  unfold Workspace.columnText Workspace.qualifiedText
  rw [quotes b member column present]
  split
  · rename_i several
    refine ⟨_, lexemes?_qualified _ _, ?_, rfl⟩
    simpa [Reach.Allows, Reach.Column, Reach.ofBindings, several] using ⟨b, member, rfl⟩
  · rename_i single
    refine ⟨_, lexemes?_quoteName _, ?_, rfl⟩
    simp [Reach.Allows, Reach.Column, Reach.ofBindings, single]

theorem noAggregate_fieldText (inReach : d.InReach reach false sql) (name : String) :
    d.NoAggregate (d.workspace.fieldText sql name) := by
  obtain ⟨lexemes, found, allowed, -⟩ := inReach
  have under : Scanner.idle.run d " AS ".toList = some ([.word "AS"], .idle) := by cases d <;> rfl
  have named := lexemes?_append_of_idle under (lexemes?_quoteName (d := d) name)
  have separated : Separated (" AS " ++ d.dialect.quoteName name) :=
    separated_append (separated_of_head rfl rfl) (by decide)
  have whole := lexemes?_append_of_separated found separated named
  rw [← String.append_assoc] at whole
  refine noAggregate_iff.2 ⟨_, whole, fun lexeme member => ?_⟩
  rcases List.mem_append.1 member with own | other
  · exact (allowed lexeme own).isAggregate_eq
  · simp only [List.cons_append, List.nil_append, List.mem_cons, List.not_mem_nil, or_false] at other
    rcases other with rfl | rfl
    · rfl
    · rfl

/-- The columns belong to the tables. -/
def Picks (bindings : List Binding) (picked : List (Nat × Binding × Column)) : Prop :=
  ∀ place ∈ picked, place.2.1 ∈ bindings ∧ place.2.2 ∈ place.2.1.table.columns

theorem noAggregate_columnSelection (quotes : d.Quotes bindings)
    {picked : List (Nat × Binding × Column)} (picks : Picks bindings picked) :
    ∀ field ∈ (d.workspace.columnSelection bindings picked).fields, d.NoAggregate field := by
  intro field member
  obtain ⟨⟨place, name⟩, named, rfl⟩ := List.mem_map.1 member
  obtain ⟨inBindings, present⟩ := picks place (List.of_mem_zip named).1
  have inReach := inReach_columnText quotes inBindings present
  dsimp only
  split
  · exact inReach.noAggregate
  · exact noAggregate_fieldText inReach name

theorem picks_allColumns (bindings : List Binding) :
    Picks bindings (Workspace.allColumns bindings) := by
  intro place member
  obtain ⟨⟨b, i⟩, bound, member⟩ := List.mem_flatMap.1 member
  obtain ⟨column, present, rfl⟩ := List.mem_map.1 member
  exact ⟨List.fst_mem_of_mem_zipIdx bound, present⟩

theorem picks_columnsOfLists {lists : List (List String)}
    {picked : List (Nat × Binding × Column)}
    (found : Workspace.columnsOfLists bindings lists = .ok picked) : Picks bindings picked := by
  unfold Workspace.columnsOfLists at found
  split at found
  · cases found
  · obtain ⟨parts, each, ended⟩ := Except.bind_eq_ok_iff.1 found
    obtain rfl := Except.ok.inj ended
    intro place member
    obtain ⟨part, inParts, member⟩ := List.mem_flatten.1 member
    have each := (Except.mapM_eq_ok_iff.1 each).flip
    obtain ⟨⟨⟨b, i⟩, keys⟩, bound, columns⟩ := each.exists_of_mem inParts
    obtain ⟨key, -, looked⟩ := (Except.mapM_eq_ok_iff.1 columns).flip.exists_of_mem member
    obtain ⟨column, present, ended⟩ := Except.bind_eq_ok_iff.1 looked
    obtain rfl := Except.ok.inj ended
    exact ⟨List.fst_mem_of_mem_zipIdx (List.of_mem_zip bound).1, Table.mem_of_lookup present⟩

end BuiltinDialect

namespace CompileContext

variable {c : CompileContext} {d : BuiltinDialect} {e : Lambda}

theorem reaches_exactValue (regular : c.Regular d) {t : Term} {f : Fragment}
    (compiled : c.exactValue e t = .ok f) : f.Reaches d c.reach := by
  obtain ⟨p, pieceEq, -, rfl⟩ := exactValue_eq_ok compiled
  exact obeys_operand regular (Term.compile_reaches regular pieceEq)

theorem reaches_namedValues (regular : c.Regular d) {index : Nat} {terms : List Term}
    {fragments : List Fragment} (compiled : c.namedValues e index terms = .ok fragments) :
    ∀ f ∈ fragments, f.Reaches d c.reach := by
  intro f among
  obtain ⟨t, -, g, valued, same⟩ := namedValues_mem compiled among
  have reaches : g.Reaches d c.reach := reaches_exactValue regular valued
  rw [same]
  exact reaches

end CompileContext

namespace BuiltinDialect

variable {d : BuiltinDialect} {bindings : List Binding}

/-- A selection is marked if one of its fields calls an aggregate. -/
theorem aggregate_selection (quotes : d.Quotes bindings) {projection : Projection}
    {arguments : Arguments} {selection : Selection}
    (selected : d.workspace.selection bindings projection arguments = .ok selection)
    {field : String} (member : field ∈ selection.fields) (calls : ¬ d.NoAggregate field) :
    selection.aggregate = true := by
  cases projection with
  | all =>
      obtain rfl := Except.ok.inj selected
      exact absurd (noAggregate_columnSelection quotes (picks_allColumns bindings) field member) calls
  | keys lists =>
      obtain ⟨picked, found, ended⟩ := Except.bind_eq_ok_iff.1 selected
      obtain rfl := Except.ok.inj ended
      exact absurd (noAggregate_columnSelection quotes (picks_columnsOfLists found) field member) calls
  | computed e =>
      obtain ⟨fragments, compiled, ended⟩ := Except.bind_eq_ok_iff.1 selected
      obtain rfl := Except.ok.inj ended
      obtain ⟨-, -, compiled⟩ := Except.bind_eq_ok_iff.1 compiled
      obtain ⟨⟨⟨f, source⟩, name⟩, named, rfl⟩ := List.mem_map.1 member
      have inFragments : f ∈ fragments := (List.of_mem_zip (List.of_mem_zip named).1).1
      have reaches := CompileContext.reaches_namedValues
        (d.regular_workspace.context quotes _) compiled f inFragments
      refine List.any_eq_true.2 ⟨f, inFragments, ?_⟩
      by_contra plain
      rw [Bool.not_eq_true] at plain
      exact calls (noAggregate_fieldText (reaches.inReach plain) name)

theorem ensures_relationText {arguments : Arguments} (r : Relation) {bindings : List Binding}
    (quotes : d.Quotes bindings) :
    Memoized.Ensures d.workspace d.Asks (d.workspace.relationText arguments r bindings)
      fun _ => True := by
  induction r generalizing bindings with
  | table t => exact Memoized.ensures_pure trivial
  | join kind left right path ihLeft ihRight =>
      have near : d.Quotes (bindings.take left.size) :=
        fun b member => quotes b (List.mem_of_mem_take member)
      have far : d.Quotes (bindings.drop left.size) :=
        fun b member => quotes b (List.mem_of_mem_drop member)
      have both : d.Quotes (bindings.take left.size ++ bindings.drop left.size) := by
        rwa [List.take_append_drop]
      exact (ihLeft near).bind fun _ _ => (ihRight far).bind fun _ _ =>
        (ensures_joinCondition d.regular_workspace both path).bind fun _ _ =>
          Memoized.ensures_pure trivial

/-- With a selection that is an aggregate every row counts: a SELECT that succeeds is exact. -/
theorem ensures_select {q : Query} (strict : Bool) (quotes : d.Quotes q.relation.bindings)
    {selection : Selection} (selected : d.workspace.selection q.relation.bindings q.projection
      q.arguments = .ok selection) (aggregate : selection.aggregate = true) :
    Memoized.Ensures d.workspace d.Asks (d.workspace.select strict q)
      fun compiled => compiled.exact = true := by
  have chosen : Memoized.Ensures d.workspace d.Asks (liftM (d.workspace.selection
      q.relation.bindings q.projection q.arguments)) fun s => s.aggregate = true :=
    Memoized.ensures_liftM fun s same => by
      obtain rfl := Except.ok.inj (selected.symm.trans same)
      exact aggregate
  have ordered : Memoized.Ensures d.workspace d.Asks
      (liftM (d.workspace.orderClause q.relation.bindings q)) fun _ => True :=
    Memoized.ensures_liftM fun _ _ => trivial
  unfold Workspace.select
  refine (ensures_relationText q.relation quotes).bind fun text _ => ?_
  refine chosen.bind fun s aggregate => ?_
  dsimp only
  split
  · exact Memoized.ensures_throw_bind _ _
  · refine (ensures_queryRestriction quotes strict q s).bind fun clauses spec => ?_
    exact ordered.bind fun order _ => Memoized.ensures_pure (spec.2 aggregate)

/-- Next to an aggregate a restriction that accepts rows too many is refused. -/
theorem refuses_inexact {q : Query} {e : Lambda} (restricted : q.restriction = some e)
    {strict : Bool} {selection : Selection} (aggregate : selection.aggregate = true)
    {found : Restriction} (inexact : found.exact = false) {memo memo' : Option Memo}
    (answered : (d.workspace.restriction bindings e q.arguments).run memo = (.ok found, memo')) :
    ∃ reason, (d.workspace.queryRestriction strict bindings q selection).run memo =
      (.error (.inexact ("restriction " ++ e.toText ++ " is not exactly representable in SQL, which " ++
        reason ++ " requires")), memo') := by
  obtain ⟨reason, blocked⟩ : ∃ reason, Workspace.blocker strict q selection = some reason := by
    simp only [Workspace.blocker, aggregate, if_true]
    split_ifs <;> exact ⟨_, rfl⟩
  refine ⟨reason, ?_⟩
  unfold Workspace.queryRestriction
  rw [restricted]
  dsimp only
  rw [ExceptT.run_bind_of_ok answered, inexact, blocked]
  rfl

/-- With the standard functions the mark of aggregates is right.  A compiled term whose SQL calls
an aggregate, at whatever depth, is marked.  Restrictions, conditions of joins and those of
statements that change rows call none, also when a memo answers.  A selection with a field that
calls one is marked, a restriction that accepts rows too many is refused next to it, and every
SELECT with it that succeeds is exact. -/
theorem aggregates_are_marked (d : BuiltinDialect) :
    (∀ bindings arguments, d.Quotes bindings →
      ∀ (t : Term) (params : List String) (p : Piece),
        t.compile (d.workspace.context bindings arguments) params = .ok p →
          ¬ d.NoAggregate p.fragment.sql → p.fragment.aggregate = true) ∧
    (∀ bindings e arguments, d.Quotes bindings →
      Memoized.Ensures d.workspace d.Asks (d.workspace.restriction bindings e arguments)
        fun found => d.NoAggregate found.sql) ∧
    (∀ near far path arguments, d.Quotes (near ++ far) →
      Memoized.Ensures d.workspace d.Asks (d.workspace.joinCondition arguments path near far)
        fun condition => d.NoAggregate condition) ∧
    (∀ t restriction arguments statement, d.Quotes [.ofTable t] →
      Memoized.Ensures d.workspace d.Asks
        (d.workspace.exactWhere t restriction arguments statement)
        fun clauses => ∀ clause ∈ clauses, d.NoAggregate clause) ∧
    ∀ (q : Query) (selection : Selection) (field : String), d.Quotes q.relation.bindings →
      d.workspace.selection q.relation.bindings q.projection q.arguments = .ok selection →
      field ∈ selection.fields → ¬ d.NoAggregate field →
        selection.aggregate = true ∧
        (∀ strict, Memoized.Ensures d.workspace d.Asks (d.workspace.select strict q)
          fun compiled => compiled.exact = true) ∧
        ∀ strict e found memo memo', q.restriction = some e → found.exact = false →
          (d.workspace.restriction q.relation.bindings e q.arguments).run memo =
            (.ok found, memo') →
          ∃ reason, (d.workspace.queryRestriction strict q.relation.bindings q selection).run
            memo = (.error (.inexact ("restriction " ++ e.toText ++
              " is not exactly representable in SQL, which " ++ reason ++ " requires")),
              memo') := by
  refine ⟨?_, ?_, ?_, ?_, ?_⟩
  · intro bindings arguments quotes t params p compiled calls
    by_contra plain
    rw [Bool.not_eq_true] at plain
    have reaches := Term.compile_reaches (d.regular_workspace.context quotes _) compiled
    exact calls (reaches.inReach plain).noAggregate
  · intro bindings e arguments quotes
    exact (ensures_restriction d.regular_workspace quotes e arguments).imp
      fun _ inReach => inReach.noAggregate
  · intro near far path arguments quotes
    exact (ensures_joinCondition d.regular_workspace quotes path).imp
      fun _ inReach => inReach.noAggregate
  · intro t restriction arguments statement quotes
    exact ensures_exactWhere quotes restriction arguments statement
  · intro q selection field quotes selected member calls
    have aggregate := aggregate_selection quotes selected member calls
    exact ⟨aggregate, fun strict => ensures_select strict quotes selected aggregate,
      fun strict e found memo memo' restricted inexact answered =>
        refuses_inexact restricted aggregate inexact answered⟩

section Sales

/-- Sales by region. -/
def sales : Table where
  name := "sales"
  quotedName := "\"sales\""
  columns := [
    { key := "region", name := "region", quotedName := "\"region\"", kind := .text,
      type := .longOf "TEXT" .varchar 0x40000000 },
    { key := "amount", name := "amount", quotedName := "\"amount\"", kind := .int,
      type := .integerOf "INTEGER" 8 }]

/-- Twice the sum of all amounts is not above ten. -/
def smallTotal : Term :=
  .not (.compare (.arithmetic (.call "sum" [.field (.param 0) "amount"]) .mul
    (.constant (.int 2))) .gt (.constant (.int 10)))

/-- The regions that start with a letter. -/
def northern : Lambda where
  params := ["s"]
  body := .method (.field (.param 0) "region") "startswith" [.constant (.text "N")]
  bound := by decide

/-- The sums of amounts by region. -/
def salesByRegion : Query where
  relation := .table sales
  projection := .computed
    { params := ["s"]
      body := .tuple [.field (.param 0) "region", .call "sum" [.field (.param 0) "amount"]]
      bound := by decide }
  restriction := some northern

theorem quotes_sales : sqlite.Quotes salesByRegion.relation.bindings := by
  intro b member column present
  obtain rfl := List.mem_singleton.1 member
  simp only [sales, List.mem_cons, List.not_mem_nil, or_false] at present
  rcases present with rfl | rfl <;> rfl

theorem aggregates_of_sales :
    (∃ p, smallTotal.compile (sqlite.workspace.context salesByRegion.relation.bindings [])
        ["s"] = .ok p ∧ p.fragment.sql = "NOT ((SUM(\"amount\") * 2) > 10)" ∧
        p.fragment.aggregate = true) ∧
    ∃ selection, sqlite.workspace.selection salesByRegion.relation.bindings
        salesByRegion.projection [] = .ok selection ∧
      selection.fields = ["\"region\" AS \"region\"", "SUM(\"amount\") AS \"sum\""] ∧
      selection.aggregate = true ∧
      ∃ reason, (sqlite.workspace.queryRestriction false salesByRegion.relation.bindings
          salesByRegion selection).run none =
        (.error (.inexact ("restriction " ++ northern.toText ++
          " is not exactly representable in SQL, which " ++ reason ++ " requires")), none) := by
  obtain ⟨marked, -, -, -, selects⟩ := aggregates_are_marked sqlite
  constructor
  · have known : (smallTotal.compile (sqlite.workspace.context salesByRegion.relation.bindings [])
        ["s"]).toOption.map (fun p => p.fragment.sql) =
          some "NOT ((SUM(\"amount\") * 2) > 10)" := by decide +kernel
    obtain ⟨p, found, text⟩ := Option.map_eq_some_iff.1 known
    have compiled := Except.toOption_eq_some_iff.1 found
    refine ⟨p, compiled, text, marked _ _ quotes_sales _ _ p compiled ?_⟩
    rw [text]
    decide +kernel
  · have known : (sqlite.workspace.selection salesByRegion.relation.bindings
        salesByRegion.projection []).map Selection.fields =
        .ok ["\"region\" AS \"region\"", "SUM(\"amount\") AS \"sum\""] := by decide +kernel
    have loose : (sqlite.workspace.restriction salesByRegion.relation.bindings northern []).run
        none = (.ok ⟨"\"region\" LIKE 'N%' ESCAPE '\\'", false⟩, none) := rfl
    obtain ⟨selection, selected, fields⟩ := Except.map_eq_ok_iff.1 known
    obtain ⟨aggregate, -, refused⟩ := selects salesByRegion selection
      "SUM(\"amount\") AS \"sum\"" quotes_sales selected (by simp [fields]) (by decide +kernel)
    exact ⟨selection, selected, fields, aggregate, refused false _ _ _ _ rfl rfl loose⟩

end Sales

end BuiltinDialect

end RowQuery
