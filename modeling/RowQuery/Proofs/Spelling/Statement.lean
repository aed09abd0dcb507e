import RowQuery.Proofs.Spelling.Clause
import RowQuery.Proofs.Sql.EmptyList

/-!
# What statements spell

Every SELECT, UPDATE and INSERT that is written is a statement of the grammar, on each database and
wherever the limits stand.  No list in an UPDATE or INSERT is empty.  In a SELECT that of the fields
is empty if no columns are asked for, and that of the sort terms if these are asked for but there
are none.
-/

namespace RowQuery

open RowQuery.Sql BuiltinDialect CompileContext RestrictionRequest

/-- What a query asks of its SELECT. -/
def Query.shape (q : Query) : SelectShape where
  distinct := q.distinct
  width := q.projection.width q.relation.tables
  order := q.order.map Order.length
  limit := q.limit
  offset := q.offset

/-- All expressions of a query. -/
structure Query.Admits (q : Query) (w : Workspace) (d : BuiltinDialect) (hollow openers : Prop) :
    Prop where
  relation : q.relation.Admits w d hollow openers q.arguments q.relation.bindings
  projection : ∀ e, q.projection = .computed e →
    (w.context q.relation.bindings q.arguments).Admits d hollow openers e
  restriction : ∀ e ∈ q.restriction,
    (w.context q.relation.bindings q.arguments).Admits d hollow openers e
  order : ∀ e, q.order = some (.computed e) →
    (w.context q.relation.bindings q.arguments).Admits d hollow openers e

variable {w : Workspace} {d : BuiltinDialect} {hollow openers : Prop} {bindings : List Binding}
variable {arguments : Arguments}

namespace BuiltinDialect

variable (builtIn : w.BuiltIn d) (style : LimitStyle)

include builtIn

/-! ## SELECT -/

theorem ensures_whereClause (quotes : d.Quotes bindings) (strict : Bool) (q : Query)
    (selection : Selection)
    (admits : ∀ e ∈ q.restriction, (w.context bindings q.arguments).Admits d hollow openers e) :
    Memoized.Ensures (w.withLimits style) (RestrictionRequest.Admits w d hollow openers)
      ((w.withLimits style).queryRestriction strict bindings q selection) fun (clauses, _) =>
        ∃ lexemes, d.Sequence openers clauses lexemes ∧ WhereClause hollow lexemes := by
  unfold Workspace.queryRestriction
  split
  · exact Memoized.ensures_pure ⟨[], .nil, .none⟩
  · rename_i e given
    refine (ensures_spells_restriction builtIn style quotes (admits e given)).bind
      fun found spells => ?_
    have clause := sequence_whereClause (w := w.withLimits style) spells
    split
    · split
      · exact Memoized.ensures_throw_bind _ _
      · exact Memoized.ensures_pure clause
    · exact Memoized.ensures_pure clause

theorem sequence_orderClause (quotes : d.Quotes bindings) {q : Query}
    (admits : ∀ e, q.order = some (.computed e) →
      (w.context bindings q.arguments).Admits d hollow openers e) {clauses : List String}
    (ordered : w.orderClause bindings q = .ok clauses) :
    ∃ lexemes, d.Sequence openers clauses lexemes ∧
      OrderClause hollow (q.order.map Order.length) lexemes := by
  have known : d.fixed? "ORDER BY " = some [.word "ORDER", .word "BY"] := by cases d <;> rfl
  unfold Workspace.orderClause at ordered
  split at ordered
  · rename_i none_
    obtain rfl := Except.ok.inj ordered
    rw [none_]
    exact ⟨[], .nil, .none⟩
  · rename_i order given
    obtain ⟨text, written, ended⟩ := Except.bind_eq_ok_iff.1 ordered
    obtain rfl := Except.ok.inj ended
    obtain ⟨terms, scans, listed⟩ := scans_orderText builtIn quotes
      (fun e computed => admits e (by rw [given, computed])) written
    rw [given]
    exact ⟨_, .single (.opening known scans), .terms listed⟩

/-- The limits stand in one of the two places. -/
theorem sequence_limits (openers : Prop) {q : Query}
    (possible : ((w.withLimits style).limitsInFront && q.offset.isSome) = false) :
    ∃ top trailing, d.Sequence openers ((w.withLimits style).topClause q) top ∧
      d.Sequence openers ((w.withLimits style).limitClause q) trailing ∧
      Limits q.limit q.offset top trailing := by
  have known : d.fixed? "TOP " = some [.word "TOP"] := by cases d <;> rfl
  have place : (w.withLimits style).dialect.limitClause = d.dialect.limitClause :=
    congrArg (·.limitClause) builtIn.dialect
  rw [Workspace.topClause, Workspace.limitClause]
  cases front : (w.withLimits style).limitsInFront with
  | true =>
      rw [front, Bool.true_and, Option.isSome_eq_false_iff, Option.isNone_iff_eq_none] at possible
      rw [possible]
      cases q.limit with
      | none => exact ⟨[], [], .nil, .nil, .none⟩
      | some limit =>
          exact ⟨_, [], .single (.opening known (scans_natText limit)), .nil, .top limit⟩
  | false =>
      rw [place]
      obtain ⟨trailing, sequence, limits⟩ := scans_limitClause (d := d) q.limit q.offset
      refine ⟨[], trailing, ?_, sequence, limits⟩
      cases q.limit with
      | none => exact .nil
      | some limit => exact .nil

theorem ensures_select_statement {q : Query} (strict : Bool)
    (wellFormed : ∀ t ∈ q.relation.tables, t.WellFormed d.dialect)
    (admits : q.Admits w d hollow openers) :
    Memoized.Ensures (w.withLimits style) (RestrictionRequest.Admits w d hollow openers)
      ((w.withLimits style).select strict q) fun compiled =>
        ∃ lexemes, d.ScansTo openers compiled.sql lexemes ∧
          SelectStatement hollow q.shape lexemes := by
  have ignores := builtIn.functions.ignoresLimits
  have bound : ∀ b ∈ q.relation.bindings, b.table.WellFormed d.dialect := fun b member =>
    wellFormed _ (q.relation.map_table_bindings ▸ List.mem_map_of_mem member)
  have quotes : d.Quotes q.relation.bindings := fun b member => (bound b member).quoted
  unfold Workspace.select
  refine (ensures_source builtIn style wellFormed bound admits.relation).bind
    fun relation relationScans => ?_
  have selected : Memoized.Ensures (w.withLimits style)
      (RestrictionRequest.Admits w d hollow openers)
      (liftM ((w.withLimits style).selection q.relation.bindings q.projection q.arguments))
      fun s => w.selection q.relation.bindings q.projection q.arguments = .ok s :=
    Memoized.ensures_liftM fun s same => by
      rwa [Workspace.selection_withLimits ignores] at same
  refine selected.bind fun s selected => ?_
  dsimp only
  split
  · exact Memoized.ensures_throw_bind _ _
  · rename_i possible
    refine (ensures_whereClause builtIn style quotes strict q s admits.restriction).bind
      fun restriction restrictionScans => ?_
    have ordered : Memoized.Ensures (w.withLimits style)
        (RestrictionRequest.Admits w d hollow openers)
        (liftM ((w.withLimits style).orderClause q.relation.bindings q))
        fun clauses => w.orderClause q.relation.bindings q = .ok clauses :=
      Memoized.ensures_liftM fun clauses same => by
        rwa [Workspace.orderClause_withLimits ignores] at same
    refine ordered.bind fun order ordered => Memoized.ensures_pure ?_
    obtain ⟨tables, relationScans, source⟩ := relationScans
    obtain ⟨⟨fields, fieldsScan, listed⟩, groups⟩ :=
      scans_selection builtIn quotes admits.projection selected
    rw [q.relation.map_table_bindings] at listed
    obtain ⟨condition, conditionScans, whereClause⟩ := restrictionScans
    obtain ⟨grouping, groupingScans, groupClause⟩ := sequence_groupClause groups
    obtain ⟨sorting, sortingScans, orderClause⟩ := sequence_orderClause builtIn quotes admits.order
      ordered
    obtain ⟨top, trailing, topScans, trailingScans, limits⟩ :=
      sequence_limits builtIn style openers (Bool.eq_false_iff.2 possible)
    have keyword : d.ScansTo openers "SELECT" [.word "SELECT"] := by
      cases d <;> exact .closed rfl rfl
    have distinct : d.Sequence openers (if q.distinct then ["DISTINCT"] else [])
        (if q.distinct then [.word "DISTINCT"] else []) := by
      have word : d.ScansTo openers "DISTINCT" [.word "DISTINCT"] := by
        cases d <;> exact .closed rfl rfl
      split
      · exact .single word
      · exact .nil
    have from_ : d.fixed? "FROM " = some [.word "FROM"] := by cases d <;> rfl
    have front := Sequence.append (Sequence.append (.single keyword) distinct) topScans
    have middle := Sequence.cons fieldsScan (.single (.opening from_ relationScans))
    have whole := (Sequence.append (.append (.append (.append (.append front middle) conditionScans)
      groupingScans) sortingScans) trailingScans).spaced
    have statement : SelectStatement hollow q.shape _ := .intro rfl limits listed
      (source_tables source) whereClause groupClause orderClause
    refine ⟨_, whole, ?_⟩
    simp only [List.append_assoc, List.cons_append, List.nil_append]
    exact statement

/-! ## UPDATE -/

variable {t : Table}

omit builtIn in
theorem quotes_ofTable (wellFormed : t.WellFormed d.dialect) : d.Quotes [.ofTable t] := by
  intro b member
  obtain rfl := List.mem_singleton.1 member
  exact wellFormed.quoted

/-- A new value is an expression. -/
theorem spells_assignmentText (wellFormed : t.WellFormed d.dialect) {column : Column}
    {new : Assignment} (admits : ∀ e, new = .computed e →
      (w.context [.ofTable t] arguments).Admits d hollow openers e) {text : String}
    (written : w.assignmentText t column arguments new = .ok text) :
    d.Spells hollow openers text := by
  have encoded {v : Value} (encoded : column.encode w.dialect v = .ok text) :
      d.Spells hollow openers text := by
    rw [builtIn.dialect] at encoded
    exact spells_encode encoded
  cases new with
  | value v => exact encoded written
  | computed e =>
      obtain ⟨f, valued, rest⟩ := Except.bind_eq_ok_iff.1 written
      split at rest
      · exact encoded rest
      · split at rest
        · obtain rfl := Except.ok.inj rest
          exact (admits e rfl).spells (builtIn.context (quotes_ofTable wellFormed) _)
            (.value valued)
        · cases rest

theorem scans_setText (wellFormed : t.WellFormed d.dialect) {assignment : String × Assignment}
    (admits : ∀ e, assignment.2 = .computed e →
      (w.context [.ofTable t] arguments).Admits d hollow openers e) {text : String}
    (written : w.setText t arguments assignment = .ok text) :
    ∃ lexemes, d.ScansTo openers text lexemes ∧ SetPhrase hollow lexemes := by
  obtain ⟨column, found, rest⟩ := Except.bind_eq_ok_iff.1 written
  obtain ⟨value, assigned, ended⟩ := Except.bind_eq_ok_iff.1 rest
  obtain rfl := Except.ok.inj ended
  obtain ⟨lexemes, scans, phrase⟩ := spells_assignmentText builtIn wellFormed admits assigned
  have equals : d.fixed? " = " = some [.symbol '='] := by cases d <;> rfl
  rw [wellFormed.quoted _ (Table.mem_of_lookup found), String.append_assoc]
  exact ⟨_, .operand (.quoteName _) (.append (.of_head rfl rfl) _) (.opening equals scans),
    .intro _ phrase⟩

theorem ensures_exactWhere_clause (wellFormed : t.WellFormed d.dialect)
    {restriction : Option Lambda} (admits : ∀ e ∈ restriction,
      (w.context [.ofTable t] arguments).Admits d hollow openers e) (statement : String) :
    Memoized.Ensures (w.withLimits style) (RestrictionRequest.Admits w d hollow openers)
      ((w.withLimits style).exactWhere t restriction arguments statement) fun clauses =>
        ∃ lexemes, d.Sequence openers clauses lexemes ∧ WhereClause hollow lexemes := by
  unfold Workspace.exactWhere
  cases restriction with
  | none => exact Memoized.ensures_pure ⟨[], .nil, .none⟩
  | some e =>
      refine (ensures_spells_restriction builtIn style (quotes_ofTable wellFormed)
        (admits e rfl)).bind fun found spells => ?_
      split
      · exact Memoized.ensures_pure (sequence_whereClause spells)
      · exact Memoized.ensures_throw _

theorem ensures_update_statement (wellFormed : t.WellFormed d.dialect)
    {assignments : List (String × Assignment)} {restriction : Option Lambda}
    (computed : ∀ assignment ∈ assignments, ∀ e, assignment.2 = .computed e →
      (w.context [.ofTable t] arguments).Admits d hollow openers e)
    (admits : ∀ e ∈ restriction, (w.context [.ofTable t] arguments).Admits d hollow openers e) :
    Memoized.Ensures (w.withLimits style) (RestrictionRequest.Admits w d hollow openers)
      ((w.withLimits style).update t assignments restriction arguments) fun sql =>
        ∃ lexemes, d.ScansTo openers sql lexemes ∧
          UpdateStatement hollow assignments.length lexemes := by
  unfold Workspace.update
  split
  · exact Memoized.ensures_throw_bind _ _
  · rename_i present
    have written : Memoized.Ensures (w.withLimits style)
        (RestrictionRequest.Admits w d hollow openers)
        (liftM (assignments.mapM ((w.withLimits style).setText t arguments)))
        fun sets => assignments.mapM (w.setText t arguments) = .ok sets :=
      Memoized.ensures_liftM fun sets same => by
        rwa [funext (Workspace.setText_withLimits builtIn.functions.ignoresLimits style t
          arguments)] at same
    refine written.bind fun sets written => ?_
    refine (ensures_exactWhere_clause builtIn style wellFormed admits "UPDATE").bind
      fun clauses clausesScan => Memoized.ensures_pure ?_
    have each := Except.mapM_eq_ok_iff.1 written
    obtain ⟨lexemes, setsScan, listed⟩ : ∃ lexemes, d.ScansTo openers (Text.join ", " sets) lexemes ∧
        Listed (SetPhrase hollow) sets.length lexemes := by
      refine scans_listed fun text member => ?_
      obtain ⟨assignment, among, set⟩ := each.flip.exists_of_mem member
      exact scans_setText builtIn wellFormed (computed assignment among) set
    obtain ⟨condition, conditionScan, whereClause⟩ := clausesScan
    have front : d.fixed? "UPDATE " = some [.word "UPDATE"] := by cases d <;> rfl
    have set : d.fixed? "SET " = some [.word "SET"] := by cases d <;> rfl
    rw [wellFormed.quotedTable]
    have whole := Sequence.append (.cons (.opening front (.quoteName t.name))
      (.single (.opening set setsScan))) conditionScan
    refine ⟨_, whole.spaced, ?_⟩
    have statement : UpdateStatement hollow assignments.length _ :=
      .intro t.name (by simpa using present) (each.length_eq ▸ listed) whereClause
    simpa only [List.append_assoc, List.cons_append, List.nil_append] using statement

/-! ## INSERT -/

/-- What is written of a column in an INSERT. -/
theorem insertCell_spells (wellFormed : t.WellFormed d.dialect) {row : Row} {column : Column}
    (member : column ∈ t.columns) {name literal : String}
    (written : w.insertCell row column = .ok (some (name, literal))) :
    name = d.dialect.quoteName column.name ∧ d.Spells hollow openers literal := by
  unfold Workspace.insertCell at written
  split at written
  · obtain ⟨text, encoded, ended⟩ := Except.bind_eq_ok_iff.1 written
    obtain ⟨rfl, rfl⟩ := Prod.mk.inj (Option.some.inj (Except.ok.inj ended))
    rw [builtIn.dialect] at encoded
    exact ⟨wellFormed.quoted column member, spells_encode encoded⟩
  · have given := Except.ok.inj written
    split at given
    · obtain ⟨rfl, rfl⟩ := Prod.mk.inj (Option.some.inj given)
      exact ⟨wellFormed.quoted column member, spells_null⟩
    · cases given

/-- An INSERT without what it returns.  It has as many names as values. -/
theorem scans_insertText (wellFormed : t.WellFormed d.dialect) {cells : List (String × String)}
    (each : ∀ cell ∈ cells, ∃ column ∈ t.columns, cell.1 = d.dialect.quoteName column.name ∧
      d.Spells hollow openers cell.2) :
    ∃ lexemes, d.ScansTo openers (w.insertText t cells) lexemes ∧
      ∀ returning, ReturningClause returning →
        InsertStatement hollow d.blankRow (lexemes ++ returning) := by
  have into : d.fixed? "INSERT INTO " = some [.word "INSERT", .word "INTO"] := by cases d <;> rfl
  rw [Workspace.insertText, wellFormed.quotedTable, builtIn.dialect]
  cases cells with
  | nil =>
      refine ⟨.word "INSERT" :: .word "INTO" :: .name [t.name] :: d.blankRow, ?_,
        fun returning clause => .blank t.name clause⟩
      have whole {back : String} (apart : Apart back)
          (blank : d.ScansTo openers back d.blankRow) :
          d.ScansTo openers ("INSERT INTO " ++ d.dialect.quoteName t.name ++ back)
            (.word "INSERT" :: .word "INTO" :: .name [t.name] :: d.blankRow) := by
        rw [String.append_assoc]
        exact .opening into (.operand (.quoteName _) apart blank)
      cases d with
      | mysql => exact whole (.of_head rfl rfl) (.closed rfl rfl)
      | ansi | postgres | sqlite => exact whole (.of_head rfl rfl) (.closed rfl rfl)
  | cons cell cells =>
      obtain ⟨names, namesScan, listedNames⟩ : ∃ names, d.ScansTo openers
          (Text.join ", " ((cell :: cells).map Prod.fst)) names ∧
          Listed NamePhrase ((cell :: cells).map Prod.fst).length names := by
        refine scans_listed fun text member => ?_
        obtain ⟨other, among, rfl⟩ := List.mem_map.1 member
        obtain ⟨column, -, name, -⟩ := each other among
        rw [name]
        exact ⟨_, .quoteName column.name, .intro column.name⟩
      obtain ⟨values, valuesScan, listedValues⟩ : ∃ values, d.ScansTo openers
          (Text.join ", " ((cell :: cells).map Prod.snd)) values ∧
          Listed (Phrase hollow .expression) ((cell :: cells).map Prod.snd).length values := by
        refine scans_listed fun text member => ?_
        obtain ⟨other, among, rfl⟩ := List.mem_map.1 member
        obtain ⟨column, -, -, spells⟩ := each other among
        exact spells
      rw [List.length_map] at listedNames listedValues
      have blank : d.fixed? " " = some [] := by cases d <;> rfl
      have opening : d.fixed? "(" = some [.symbol '('] := by cases d <;> rfl
      have between : d.fixed? ")" = some [.symbol ')'] := by cases d <;> rfl
      have keyword : d.fixed? " VALUES " = some [.word "VALUES"] := by cases d <;> rfl
      have closing : d.ScansTo openers ")" [.symbol ')'] := by cases d <;> exact .closed rfl rfl
      have gap : Apart " " := rfl
      have bracket : Apart ")" := rfl
      have valuesPart := ScansTo.opening keyword
        (.opening opening (.operand valuesScan bracket closing))
      have namesPart := ScansTo.opening opening
        (.operand namesScan (bracket.append _) (.opening between valuesPart))
      have whole := ScansTo.opening into
        (.operand (.quoteName t.name) (gap.append _) (.opening blank namesPart))
      simp only [List.isEmpty_cons, Bool.false_eq_true, if_false, Text.bracketed,
        String.append_assoc]
      refine ⟨_, whole, fun returning clause => ?_⟩
      have statement : InsertStatement hollow d.blankRow _ :=
        .row t.name listedNames listedValues clause
      simpa only [List.append_assoc, List.cons_append, List.nil_append] using statement

/-- What a row gives no value for is generated or left to its default. -/
theorem insert_statement (wellFormed : t.WellFormed d.dialect) {row : Row}
    {compiled : CompiledQuery} (inserted : (w.withLimits style).insert t row = .ok compiled) :
    ∃ lexemes, d.ScansTo openers compiled.sql lexemes ∧
      InsertStatement hollow d.blankRow lexemes := by
  have same : (w.withLimits style).insert t row = w.insert t row := rfl
  rw [same] at inserted
  unfold Workspace.insert at inserted
  split at inserted
  · cases inserted
  · obtain ⟨cells, written, rest⟩ := Except.bind_eq_ok_iff.1 inserted
    have each : ∀ cell ∈ cells.filterMap id, ∃ column ∈ t.columns,
        cell.1 = d.dialect.quoteName column.name ∧ d.Spells hollow openers cell.2 := by
      intro cell member
      obtain ⟨_, among, rfl⟩ := List.mem_filterMap.1 member
      obtain ⟨column, present, cellEq⟩ :=
        (Except.mapM_eq_ok_iff.1 written).flip.exists_of_mem among
      exact ⟨column, present, insertCell_spells builtIn wellFormed present cellEq⟩
    obtain ⟨lexemes, scans, statement⟩ := scans_insertText builtIn wellFormed each
    dsimp only at rest
    split at rest
    · obtain rfl := Except.ok.inj rest
      exact ⟨lexemes, scans, List.append_nil lexemes ▸ statement [] .none⟩
    · rename_i returns
      obtain rfl := Except.ok.inj rest
      obtain ⟨names, namesScan, listed⟩ : ∃ names, d.ScansTo openers (Text.join ", "
          ((t.columns.filter (Workspace.generates row)).map Column.quotedName)) names ∧
          Listed NamePhrase ((t.columns.filter (Workspace.generates row)).map
            Column.quotedName).length names := by
        refine scans_listed fun text member => ?_
        obtain ⟨column, among, rfl⟩ := List.mem_map.1 member
        rw [wellFormed.quoted column (List.mem_filter.1 among).1]
        exact ⟨_, .quoteName column.name, .intro column.name⟩
      have keyword : d.fixed? " RETURNING " = some [.word "RETURNING"] := by cases d <;> rfl
      have clause : ReturningClause (.word "RETURNING" :: names) := by
        rw [List.length_map] at listed
        cases generated : t.columns.filter (Workspace.generates row) with
        | nil => simp [generated] at returns
        | cons column columns =>
            rw [generated] at listed
            exact .names listed
      have gap : Apart " RETURNING " := rfl
      refine ⟨_, ?_, statement _ clause⟩
      dsimp only
      rw [String.append_assoc]
      exact .operand scans (gap.append _) (.opening keyword namesScan)

end BuiltinDialect

/-- Every statement that is written is one of the grammar, on each database and with the limits in
either place.  A SELECT has as many fields as columns are asked for and as many sort terms as are
given; so, however it is read, one of its lists is empty exactly if there are none of these.  In an
UPDATE there is an assignment at least, and an INSERT has as many names as values, or else the row of
defaults of the database.  No operand is missing in any of them and no comment opens, but for what
expressions bring with them. -/
theorem statements_have_shape (builtIn : w.BuiltIn d) (style : LimitStyle)
    (hollow openers : Prop) :
    (∀ (strict : Bool) (q : Query), (∀ t ∈ q.relation.tables, t.WellFormed d.dialect) →
      q.Admits w d hollow openers →
      Memoized.Ensures (w.withLimits style) (RestrictionRequest.Admits w d hollow openers)
        ((w.withLimits style).select strict q) fun compiled =>
          ∃ lexemes, d.ScansTo openers compiled.sql lexemes ∧
            SelectStatement hollow q.shape lexemes ∧
            (¬hollow → ∀ shape, SelectStatement hollow shape lexemes →
              (shape.IsFull ↔ q.shape.IsFull))) ∧
    (∀ (t : Table) (assignments : List (String × Assignment)) (restriction : Option Lambda)
      (arguments : Arguments), t.WellFormed d.dialect →
      (∀ assignment ∈ assignments, ∀ e, assignment.2 = .computed e →
        (w.context [.ofTable t] arguments).Admits d hollow openers e) →
      (∀ e ∈ restriction, (w.context [.ofTable t] arguments).Admits d hollow openers e) →
      Memoized.Ensures (w.withLimits style) (RestrictionRequest.Admits w d hollow openers)
        ((w.withLimits style).update t assignments restriction arguments) fun sql =>
          ∃ lexemes, d.ScansTo openers sql lexemes ∧
            UpdateStatement hollow assignments.length lexemes) ∧
    ∀ (t : Table) (row : Row) (compiled : CompiledQuery), t.WellFormed d.dialect →
      (w.withLimits style).insert t row = .ok compiled →
        ∃ lexemes, d.ScansTo openers compiled.sql lexemes ∧
          InsertStatement hollow d.blankRow lexemes := by
  refine ⟨fun strict q wellFormed admits => ?_, fun t assignments restriction arguments wellFormed
    computed admits => ensures_update_statement builtIn style wellFormed computed admits,
    fun t row compiled wellFormed inserted => insert_statement builtIn style wellFormed inserted⟩
  refine (ensures_select_statement builtIn style strict wellFormed admits).imp ?_
  rintro compiled ⟨lexemes, scans, statement⟩
  refine ⟨lexemes, scans, statement, fun present shape again => ?_⟩
  obtain rfl : hollow = False := eq_false present
  exact again.isFull_iff statement

section Invoices

theorem wellFormed_invoices (d : BuiltinDialect) : (invoices d).WellFormed d.dialect where
  quoted := by simp [invoices]
  keys := by simp [invoices]
  names := by simp [invoices]
  indices := by simp [invoices]
  references := by simp [invoices]
  quotedTable := rfl
  quotedIndices := by simp [invoices]
  ownIndices := by simp [invoices]

/-- The first three days, each once. -/
def firstDays : Query where
  relation := .table (invoices ansi)
  order := some (.keys ["due"])
  limit := some 3
  distinct := true

/-- No columns in no order. -/
def nothingAtAll : Query where
  relation := .table (invoices ansi)
  projection := .keys [[]]
  order := some (.keys [])

/-- With limits behind SELECT a query has all lists that it asks for.  One that asks for nothing gets
a statement that no reading makes complete. -/
theorem nothingAtAll_lacks_members :
    (∃ compiled lexemes, ((ansi.workspace.withLimits .top).select false firstDays).run none =
        (.ok compiled, none) ∧
      compiled.sql = r#"SELECT DISTINCT TOP 3 "due" FROM "invoices" ORDER BY "due""# ∧
      ansi.lexemes? compiled.sql = some lexemes ∧
      ∃ shape, SelectStatement False shape lexemes ∧ shape.IsFull) ∧
    ∃ compiled lexemes, ((ansi.workspace.withLimits .top).select false nothingAtAll).run none =
        (.ok compiled, none) ∧
      compiled.sql = r#"SELECT  FROM "invoices" ORDER BY "# ∧
      ansi.lexemes? compiled.sql = some lexemes ∧
      ∀ shape, SelectStatement False shape lexemes → ¬shape.IsFull := by
  have builtIn : ansi.workspace.BuiltIn ansi := ⟨rfl, .inl rfl⟩
  obtain ⟨shaped, -, -⟩ := statements_have_shape builtIn .top False False
  have written (q : Query) (source : q.relation = .table (invoices ansi))
      (admits : q.Admits ansi.workspace ansi False False) {compiled : CompiledQuery}
      (ran : ((ansi.workspace.withLimits .top).select false q).run none = (.ok compiled, none)) :
      ∃ lexemes, ansi.lexemes? compiled.sql = some lexemes ∧
        SelectStatement False q.shape lexemes ∧
        ∀ shape, SelectStatement False shape lexemes → (shape.IsFull ↔ q.shape.IsFull) := by
    have wellFormed : ∀ t ∈ q.relation.tables, t.WellFormed ansi.dialect := by
      simp [source, Relation.tables, wellFormed_invoices]
    obtain ⟨-, ensured⟩ := shaped false q wellFormed admits none recalls_none
    obtain ⟨lexemes, scans, statement, read⟩ := ensured compiled (congrArg Prod.fst ran)
    exact ⟨lexemes, scans.1, statement, read id⟩
  have plain (q : Query) (source : q.relation = .table (invoices ansi))
      (noProjection : ∀ e, q.projection ≠ .computed e) (noRestriction : q.restriction = none)
      (noOrder : ∀ e, q.order ≠ some (.computed e)) :
      q.Admits ansi.workspace ansi False False := by
    refine ⟨?_, fun e computed => absurd computed (noProjection e), ?_,
      fun e computed => absurd computed (noOrder e)⟩
    · rw [source]
      trivial
    · simp [noRestriction]
  constructor
  · obtain ⟨compiled, ran, text⟩ : ∃ compiled,
        ((ansi.workspace.withLimits .top).select false firstDays).run none = (.ok compiled, none) ∧
        compiled.sql = r#"SELECT DISTINCT TOP 3 "due" FROM "invoices" ORDER BY "due""# :=
      ⟨_, rfl, by decide +kernel⟩
    have admits := plain firstDays rfl (by simp [firstDays]) rfl (by simp [firstDays])
    obtain ⟨lexemes, known, statement, -⟩ := written firstDays rfl admits ran
    exact ⟨compiled, lexemes, ran, text, known, _, statement, by decide, by decide⟩
  · obtain ⟨compiled, ran, text⟩ : ∃ compiled,
        ((ansi.workspace.withLimits .top).select false nothingAtAll).run none =
          (.ok compiled, none) ∧
        compiled.sql = r#"SELECT  FROM "invoices" ORDER BY "# :=
      ⟨_, rfl, by decide +kernel⟩
    have admits := plain nothingAtAll rfl (by simp [nothingAtAll]) rfl (by simp [nothingAtAll])
    obtain ⟨lexemes, known, -, read⟩ := written nothingAtAll rfl admits ran
    refine ⟨compiled, lexemes, ran, text, known, fun shape statement isFull => ?_⟩
    exact absurd ((read shape statement).1 isFull).1 (by decide)

end Invoices

end RowQuery
