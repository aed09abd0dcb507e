import RowQuery.Proofs.Query.LimitStyle
import RowQuery.Proofs.Query.OutputName
import RowQuery.Proofs.Reach.Aggregate
import RowQuery.Proofs.Spelling.Expression
import RowQuery.Proofs.Sql.Statement
import RowQuery.Proofs.Table.WellFormed

/-!
# What clauses spell

The clauses of statements are put together from what is compiled of expressions, from the names of
tables and columns, and from literals.  Each of them is a clause of the grammar, also where a memo
answers, and its lists have as many members as were asked for.
-/

namespace RowQuery

open RowQuery.Sql BuiltinDialect CompileContext

/-- Where an operand is missing in the SQL of an expression one may be, and where a comment opens in
it one may. -/
structure CompileContext.Admits (c : CompileContext) (d : BuiltinDialect) (hollow openers : Prop)
    (e : Lambda) : Prop where
  missing : ∀ s, e.body.GoesThrough s → s.MissesOperand c e.params → hollow
  signed : d = sqlite → ∀ s, e.body.GoesThrough s → s.SubtractsNegative c e.params → openers

/-- Statements are written by a built-in dialect with the standard functions. -/
structure Workspace.BuiltIn (w : Workspace) (d : BuiltinDialect) : Prop where
  dialect : w.dialect = d.dialect
  functions : w.functions.IsStandard

/-- A restriction of tables that are quoted in the way of the dialect. -/
structure RestrictionRequest.Admits (w : Workspace) (d : BuiltinDialect) (hollow openers : Prop)
    (r : RestrictionRequest) : Prop where
  quotes : d.Quotes r.bindings
  expression : (w.context r.bindings r.arguments).Admits d hollow openers r.e

/-- The conditions of joins that are given as expressions. -/
def Relation.Admits (w : Workspace) (d : BuiltinDialect) (hollow openers : Prop)
    (arguments : Arguments) : Relation → List Binding → Prop
  | .table _, _ => True
  | .join _ left right path, bindings =>
      left.Admits w d hollow openers arguments (bindings.take left.size) ∧
      right.Admits w d hollow openers arguments (bindings.drop left.size) ∧
      ∀ e ∈ path, (w.context bindings arguments).Admits d hollow openers e

variable {w : Workspace} {d : BuiltinDialect} {hollow openers : Prop} {bindings : List Binding}
variable {arguments : Arguments} {sql : String}

namespace CompileContext

variable {c : CompileContext} {e : Lambda}

theorem Admits.spells (admits : c.Admits d hollow openers e) (builtIn : c.BuiltIn d)
    (writes : c.Writes e sql) : d.Spells hollow openers sql :=
  spells_writes builtIn admits.missing admits.signed writes

/-- The terms to sort by, without the marks of those that are descending. -/
theorem Admits.stripped (admits : c.Admits d hollow openers e) {stripped : Lambda}
    (made : Lambda.make e.params (.tuple ((e.body.entries.map Term.sortKey).map Prod.fst)) =
      .ok stripped) : c.Admits d hollow openers stripped := by
  unfold Lambda.make at made
  split at made
  · obtain rfl := Except.ok.inj made
    have through {s : Term} (later : Term.GoesThrough
        (.tuple ((e.body.entries.map Term.sortKey).map Prod.fst)) s) :
        s = .tuple ((e.body.entries.map Term.sortKey).map Prod.fst) ∨ e.body.GoesThrough s := by
      rcases later.cases_head with rfl | ⟨u, among, later⟩
      · exact .inl rfl
      · obtain ⟨⟨u, marked⟩, key, rfl⟩ := List.mem_map.1 among
        obtain ⟨t, entry, same⟩ := List.mem_map.1 key
        obtain rfl := (Prod.mk.inj same).1
        exact .inr ((Term.goesThrough_sortKey entry).trans later)
    constructor
    · intro s later misses
      rcases through later with rfl | within
      · cases misses
      · exact admits.missing s within misses
    · intro database s later subtracts
      rcases through later with rfl | within
      · cases subtracts
      · exact admits.signed database s within subtracts
  · cases made

end CompileContext

theorem Workspace.BuiltIn.context (builtIn : w.BuiltIn d) (quotes : d.Quotes bindings)
    (arguments : Arguments) : (w.context bindings arguments).BuiltIn d := by
  refine ⟨builtIn.dialect, builtIn.functions, fun b member column present => ?_⟩
  exact (quotes b member column present).trans
    (congrArg (·.quoteName column.name) builtIn.dialect.symm)

namespace BuiltinDialect

variable (builtIn : w.BuiltIn d) (style : LimitStyle)

/-! ## Conditions -/

include builtIn

theorem spells_afresh {r : RestrictionRequest} (admits : r.Admits w d hollow openers)
    {found : Restriction} (compiled : r.afresh w = .ok found) :
    d.Spells hollow openers found.sql := by
  obtain ⟨rendering, restricted, rest⟩ := Except.bind_eq_ok_iff.1 compiled
  split at rest
  · cases rest
  · obtain rfl := Except.ok.inj rest
    exact admits.expression.spells (builtIn.context admits.quotes _) (.restriction restricted)

/-- A restriction is an expression, whether it was compiled now or for a request before. -/
theorem ensures_spells_restriction (quotes : d.Quotes bindings) {e : Lambda}
    (admits : (w.context bindings arguments).Admits d hollow openers e) :
    Memoized.Ensures (w.withLimits style) (RestrictionRequest.Admits w d hollow openers)
      ((w.withLimits style).restriction bindings e arguments)
      fun found => d.Spells hollow openers found.sql := by
  have asked : RestrictionRequest.Admits w d hollow openers ⟨bindings, e, arguments⟩ :=
    ⟨quotes, admits⟩
  refine (Memoized.ensures_restriction asked).imp ?_
  rintro found ⟨s, sAdmits, -, compiled⟩
  refine spells_afresh builtIn sAdmits ?_
  rw [← compiled]
  exact (Workspace.compileRestriction_withLimits builtIn.functions.ignoresLimits style _ _ _).symm

omit builtIn in
theorem sequence_whereClause (spells : d.Spells hollow openers sql) :
    ∃ lexemes, d.Sequence openers (w.whereClause sql) lexemes ∧ WhereClause hollow lexemes := by
  obtain ⟨condition, scans, phrase⟩ := spells
  have known : d.fixed? "WHERE " = some [.word "WHERE"] := by cases d <;> rfl
  unfold Workspace.whereClause
  split
  · exact ⟨[], .nil, .none⟩
  · exact ⟨_, .single (.opening known scans), .condition phrase⟩

theorem spells_referenceTerm {l r : Binding} (quotes : d.Quotes [l, r]) {reference : Reference}
    (written : w.referenceTerm l r reference = some sql) : d.Spells hollow openers sql := by
  obtain ⟨n, nFound, rest⟩ := Option.bind_eq_some_iff.1 written
  obtain ⟨f, fFound, ended⟩ := Option.bind_eq_some_iff.1 rest
  obtain rfl := Option.some.inj ended
  have side {b : Binding} {column : Column} (among : b ∈ [l, r]) (found : column ∈ b.table.columns) :
      d.Spells hollow openers (w.qualifiedText b column) := by
    rw [Workspace.qualifiedText, quotes b among column found, builtIn.dialect]
    exact ⟨_, .qualified b.label column.name, .name _⟩
  rw [builtIn.dialect]
  exact spells_compare (side (by simp) (Table.mem_of_column? nFound)) .eq
    (side (by simp) (Table.mem_of_column? fFound))

theorem spells_referencePath {l r : Binding} (quotes : d.Quotes [l, r])
    (written : w.referencePath l r = some sql) : d.Spells hollow openers sql := by
  have each : ∀ text ∈ (l.table.referencesTo r.table.name).filterMap (w.referenceTerm l r),
      d.Spells hollow openers text := by
    intro text member
    obtain ⟨reference, -, found⟩ := List.mem_filterMap.1 member
    exact spells_referenceTerm builtIn quotes found
  unfold Workspace.referencePath at written
  split at written
  · cases written
  · rename_i term single
    obtain rfl := Option.some.inj written
    exact each term (by rw [single]; simp)
  · rename_i several _
    obtain rfl := Option.some.inj written
    have known : d.fixed? " AND " = some [.word "AND"] := by cases d <;> rfl
    exact (Spells.join (.of_head rfl rfl) known (by decide) several each).bracketed

theorem spells_pathBetween {l r : Binding} (quotes : d.Quotes [l, r])
    (found : w.pathBetween l r = some sql) : d.Spells hollow openers sql := by
  rcases (Option.orElse_eq_some _ _ _).1 found with forth | ⟨-, back⟩
  · exact spells_referencePath builtIn quotes forth
  · refine spells_referencePath builtIn (fun b member => quotes b ?_) back
    simpa [or_comm] using member

theorem ensures_spells_joinCondition {near far : List Binding} (quotes : d.Quotes (near ++ far))
    {path : Option Lambda}
    (admits : ∀ e ∈ path, (w.context (near ++ far) arguments).Admits d hollow openers e) :
    Memoized.Ensures (w.withLimits style) (RestrictionRequest.Admits w d hollow openers)
      ((w.withLimits style).joinCondition arguments path near far)
      fun condition => d.Spells hollow openers condition := by
  unfold Workspace.joinCondition
  cases path with
  | some e =>
      refine (ensures_spells_restriction builtIn style quotes (admits e rfl)).bind
        fun found spells => ?_
      split
      · exact Memoized.ensures_pure spells
      · exact Memoized.ensures_throw _
  | none =>
      dsimp only
      split
      · rename_i condition found
        obtain ⟨l, inNear, found⟩ := List.exists_of_findSome?_eq_some found
        obtain ⟨r, inFar, found⟩ := List.exists_of_findSome?_eq_some found
        have pair : d.Quotes [l, r] := by
          intro b member
          simp only [List.mem_cons, List.not_mem_nil, or_false] at member
          rcases member with rfl | rfl
          · exact quotes b (List.mem_append_left far inNear)
          · exact quotes b (List.mem_append_right near inFar)
        exact Memoized.ensures_pure (spells_pathBetween builtIn pair found)
      · exact Memoized.ensures_throw _

/-! ## Tables -/

/-- What a relation is in a FROM clause. -/
def sourceRole (r : Relation) : SourceRole :=
  if r.isJoin then .tables else .operand

omit builtIn in
theorem source_tables {r : Relation} {lexemes : List Lexeme}
    (source : Source hollow (sourceRole r) lexemes) : Source hollow .tables lexemes := by
  unfold sourceRole at source
  split at source
  · exact source
  · exact .single source

omit builtIn in
/-- Joined tables stand in brackets where a join needs a single operand. -/
theorem scans_behind {r : Relation} {text : String} {lexemes : List Lexeme}
    (scans : d.ScansTo openers text lexemes) (source : Source hollow (sourceRole r) lexemes) :
    ∃ operand, d.ScansTo openers (if r.isJoin then Text.bracketed text else text) operand ∧
      Source hollow .operand operand := by
  unfold sourceRole at source
  split at source
  · have opening : d.fixed? "(" = some [.symbol '('] := by cases d <;> rfl
    have closing : d.ScansTo openers ")" [.symbol ')'] := by cases d <;> exact .closed rfl rfl
    refine ⟨_, ?_, .bracketed source⟩
    rw [if_pos ‹_›, Text.bracketed, String.append_assoc]
    exact .opening opening (.operand scans rfl closing)
  · rw [if_neg ‹_›]
    exact ⟨lexemes, scans, source⟩

omit builtIn in
theorem scans_join {near far : List Lexeme} {nearText farText : String} (kind : JoinKind)
    (nearScans : d.ScansTo openers nearText near) (nearSource : Source hollow .tables near)
    (farScans : d.ScansTo openers farText far) (farSource : Source hollow .operand far)
    (spells : d.Spells hollow openers sql) :
    ∃ lexemes, d.ScansTo openers (spaced [nearText, kind.keyword, farText, "ON", sql]) lexemes ∧
      Source hollow .tables lexemes := by
  obtain ⟨condition, scans, phrase⟩ := spells
  have keyword : ∃ word ∈ ["INNER", "LEFT", "RIGHT"],
      d.ScansTo openers kind.keyword [.word word, .word "JOIN"] := by
    cases kind with
    | inner => exact ⟨"INNER", by decide, by cases d <;> exact .closed rfl rfl⟩
    | left => exact ⟨"LEFT", by decide, by cases d <;> exact .closed rfl rfl⟩
    | right => exact ⟨"RIGHT", by decide, by cases d <;> exact .closed rfl rfl⟩
  obtain ⟨word, among, keyword⟩ := keyword
  have on : d.ScansTo openers "ON" [.word "ON"] := by cases d <;> exact .closed rfl rfl
  exact ⟨_, Sequence.spaced (.cons nearScans (.cons keyword (.cons farScans (.cons on
    (.single scans))))), .join among nearSource farSource phrase⟩

theorem scans_tableText {b : Binding} (wellFormed : b.table.WellFormed d.dialect) :
    ∃ lexemes, d.ScansTo openers (w.tableText b) lexemes ∧ Source hollow .operand lexemes := by
  have renames : d.fixed? " AS " = some [.word "AS"] := by cases d <;> rfl
  rw [Workspace.tableText, wellFormed.quotedTable, builtIn.dialect]
  split
  · exact ⟨_, .quoteName _, .table _⟩
  · rw [String.append_assoc]
    exact ⟨_, .operand (.quoteName _) (.append (.of_head rfl rfl) _)
      (.opening renames (.quoteName _)), .renamed b.table.name b.label⟩

/-- The tables of a relation and the joins between them. -/
theorem ensures_source {r : Relation} (own : ∀ t ∈ r.tables, t.WellFormed d.dialect)
    (bound : ∀ b ∈ bindings, b.table.WellFormed d.dialect)
    (admits : r.Admits w d hollow openers arguments bindings) :
    Memoized.Ensures (w.withLimits style) (RestrictionRequest.Admits w d hollow openers)
      ((w.withLimits style).relationText arguments r bindings) fun text =>
        ∃ lexemes, d.ScansTo openers text lexemes ∧ Source hollow (sourceRole r) lexemes := by
  induction r generalizing bindings with
  | table t =>
      refine Memoized.ensures_pure ?_
      cases bindings with
      | nil =>
          have named := (own t (List.mem_singleton_self t)).quotedTable
          rw [List.head?_nil, Option.map_none, Option.getD_none, named]
          exact ⟨_, .quoteName t.name, .table t.name⟩
      | cons b rest => exact scans_tableText builtIn (bound b List.mem_cons_self)
  | join kind left right path ihLeft ihRight =>
      obtain ⟨leftAdmits, rightAdmits, pathAdmits⟩ := admits
      have whole : bindings.take left.size ++ bindings.drop left.size = bindings :=
        List.take_append_drop _ _
      have ensuresLeft := ihLeft (fun t member => own t (List.mem_append_left right.tables member))
        (fun b member => bound b (List.mem_of_mem_take member)) leftAdmits
      have ensuresRight := ihRight
        (fun t member => own t (List.mem_append_right left.tables member))
        (fun b member => bound b (List.mem_of_mem_drop member)) rightAdmits
      have quotes : d.Quotes (bindings.take left.size ++ bindings.drop left.size) :=
        whole.symm ▸ fun b member => (bound b member).quoted
      refine ensuresLeft.bind fun leftText leftScans => ?_
      refine ensuresRight.bind fun rightText rightScans => ?_
      refine (ensures_spells_joinCondition builtIn style quotes (whole.symm ▸ pathAdmits)).bind
        fun condition spells => Memoized.ensures_pure ?_
      obtain ⟨near, nearScans, nearSource⟩ := leftScans
      obtain ⟨far, farScans, farSource⟩ := rightScans
      obtain ⟨nearBehind, nearScans', nearOperand⟩ := scans_behind nearScans nearSource
      obtain ⟨farBehind, farScans', farOperand⟩ := scans_behind farScans farSource
      rw [Workspace.joinText]
      split
      · exact scans_join .left farScans (source_tables farSource) nearScans' nearOperand spells
      · exact scans_join kind nearScans (source_tables nearSource) farScans' farOperand spells

/-! ## Fields -/

/-- An expression under a name. -/
theorem scans_fieldText (spells : d.Spells hollow openers sql) (name : String) :
    ∃ lexemes, d.ScansTo openers (w.fieldText sql name) lexemes ∧ FieldPhrase hollow lexemes := by
  obtain ⟨field, scans, phrase⟩ := spells
  have renames : d.fixed? " AS " = some [.word "AS"] := by cases d <;> rfl
  rw [Workspace.fieldText, builtIn.dialect, String.append_assoc]
  exact ⟨_, .operand scans (.append (.of_head rfl rfl) _) (.opening renames (.quoteName name)),
    .named name phrase⟩

theorem scans_columnSelection (quotes : d.Quotes bindings)
    {picked : List (Nat × Binding × Column)} (picks : Picks bindings picked) :
    ∃ lexemes, d.ScansTo openers
        (Text.join ", " (w.columnSelection bindings picked).fields) lexemes ∧
      Listed (FieldPhrase hollow) picked.length lexemes := by
  have each : ∀ field ∈ (w.columnSelection bindings picked).fields,
      ∃ lexemes, d.ScansTo openers field lexemes ∧ FieldPhrase hollow lexemes := by
    intro field member
    obtain ⟨⟨⟨i, b, column⟩, name⟩, named, rfl⟩ := List.mem_map.1 member
    obtain ⟨inBindings, present⟩ := picks _ (List.of_mem_zip named).1
    have spells : d.Spells hollow openers (w.columnText bindings b column) := by
      rw [Workspace.columnText, Workspace.qualifiedText, quotes b inBindings column present,
        builtIn.dialect]
      exact (spells_columnText b.label column.name _).1
    dsimp only
    split
    · obtain ⟨lexemes, scans, phrase⟩ := spells
      exact ⟨lexemes, scans, .plain phrase⟩
    · exact scans_fieldText builtIn spells name
  have count : (w.columnSelection bindings picked).fields.length = picked.length := by
    simp [Workspace.columnSelection, length_outputNames]
  exact count ▸ scans_listed each

end BuiltinDialect

/-- The number of columns that are selected from some tables. -/
def Projection.width : Projection → List Table → Nat
  | .all, tables => (tables.flatMap Table.columns).length
  | .keys lists, _ => lists.flatten.length
  | .computed e, _ => e.body.entries.length

theorem length_allColumns (bindings : List Binding) : (Workspace.allColumns bindings).length =
    Projection.all.width (bindings.map Binding.table) := by
  have tables : bindings.zipIdx.map (fun place => place.1.table.columns.length) =
      (bindings.map Binding.table).map fun t => t.columns.length := by
    rw [← List.zipIdx_map_fst 0 bindings, List.map_map, List.map_map, List.zipIdx_map_fst]
    rfl
  rw [Workspace.allColumns, Projection.width, List.length_flatMap, List.length_flatMap, ← tables]
  simp

theorem length_columnsOfLists {lists : List (List String)} {picked : List (Nat × Binding × Column)}
    (found : Workspace.columnsOfLists bindings lists = .ok picked) (tables : List Table) :
    picked.length = (Projection.keys lists).width tables := by
  unfold Workspace.columnsOfLists at found
  split at found
  · cases found
  · rename_i alike
    obtain ⟨parts, each, ended⟩ := Except.bind_eq_ok_iff.1 found
    obtain rfl := Except.ok.inj ended
    have lengths : parts.map List.length =
        (bindings.zipIdx.zip lists).map fun place => place.2.length := by
      refine (List.forall₂_eq_eq_eq ▸ List.forall₂_map_left_iff.2
        (List.forall₂_map_right_iff.2 ?_) : _)
      refine (Except.mapM_eq_ok_iff.1 each).flip.imp fun part place columns => ?_
      exact (Except.mapM_eq_ok_iff.1 columns).length_eq.symm
    have sides : (bindings.zipIdx.zip lists).map Prod.snd = lists :=
      List.map_snd_zip (by simp; omega)
    rw [List.length_flatten, lengths, Projection.width, List.length_flatten]
    conv => rhs; rw [← sides, List.map_map]
    rfl

namespace BuiltinDialect

variable (builtIn : w.BuiltIn d)

include builtIn

/-- There are as many fields as columns are asked for. -/
theorem scans_selection (quotes : d.Quotes bindings) {projection : Projection}
    (admits : ∀ e, projection = .computed e →
      (w.context bindings arguments).Admits d hollow openers e)
    {selection : Selection} (selected : w.selection bindings projection arguments = .ok selection) :
    (∃ lexemes, d.ScansTo openers (Text.join ", " selection.fields) lexemes ∧
      Listed (FieldPhrase hollow) (projection.width (bindings.map Binding.table)) lexemes) ∧
    ∀ group ∈ selection.groups, d.Spells hollow openers group := by
  cases projection with
  | all =>
      obtain rfl := Except.ok.inj selected
      rw [← length_allColumns]
      exact ⟨scans_columnSelection builtIn quotes (picks_allColumns bindings), by
        simp [Workspace.columnSelection]⟩
  | keys lists =>
      obtain ⟨picked, found, ended⟩ := Except.bind_eq_ok_iff.1 selected
      obtain rfl := Except.ok.inj ended
      rw [← length_columnsOfLists found]
      exact ⟨scans_columnSelection builtIn quotes (picks_columnsOfLists found), by
        simp [Workspace.columnSelection]⟩
  | computed e =>
      obtain ⟨fragments, listed, ended⟩ := Except.bind_eq_ok_iff.1 selected
      have spells {f : Fragment} (among : f ∈ fragments) : d.Spells hollow openers f.sql :=
        (admits e rfl).spells (builtIn.context quotes _) (.columns listed among)
      have count : selection.fields.length = e.body.entries.length := by
        obtain rfl := Except.ok.inj ended
        simp [length_outputNames, length_columns listed]
      have each : ∀ field ∈ selection.fields,
          ∃ lexemes, d.ScansTo openers field lexemes ∧ FieldPhrase hollow lexemes := by
        obtain rfl := Except.ok.inj ended
        intro field member
        obtain ⟨⟨⟨f, source⟩, name⟩, named, rfl⟩ := List.mem_map.1 member
        exact scans_fieldText builtIn (spells (List.of_mem_zip (List.of_mem_zip named).1).1) name
      have groups : ∀ group ∈ selection.groups, d.Spells hollow openers group := by
        obtain rfl := Except.ok.inj ended
        intro group member
        dsimp only at member
        split at member
        · obtain ⟨f, among, rfl⟩ := List.mem_map.1 member
          exact spells (List.mem_filter.1 among).1
        · cases member
      rw [Projection.width, ← count]
      exact ⟨scans_listed each, groups⟩

omit builtIn in
theorem sequence_groupClause {selection : Selection}
    (groups : ∀ group ∈ selection.groups, d.Spells hollow openers group) :
    ∃ lexemes, d.Sequence openers (Workspace.groupClause selection) lexemes ∧
      GroupClause hollow lexemes := by
  have known : d.fixed? "GROUP BY " = some [.word "GROUP", .word "BY"] := by cases d <;> rfl
  obtain ⟨lexemes, scans, listed⟩ := scans_listed (d := d) groups
  rw [Workspace.groupClause]
  cases texts : selection.groups with
  | nil => exact ⟨[], .nil, .none⟩
  | cons group rest =>
      rw [texts] at scans listed
      exact ⟨_, .single (.opening known scans), .terms listed⟩

end BuiltinDialect

/-! ## Orders -/

/-- The number of terms of an order. -/
def Order.length : Order → Nat
  | .keys columns => columns.length
  | .computed e => e.body.entries.length

namespace BuiltinDialect

/-- A term of an order, which may be descending. -/
theorem scans_sortText (spells : d.Spells hollow openers sql) (descending : Bool) :
    ∃ lexemes, d.ScansTo openers (if descending then sql ++ " DESC" else sql) lexemes ∧
      SortPhrase hollow lexemes := by
  obtain ⟨term, scans, phrase⟩ := spells
  have mark : d.ScansTo openers " DESC" [.word "DESC"] := by cases d <;> exact .closed rfl rfl
  cases descending with
  | false => exact ⟨term, scans, .ascending phrase⟩
  | true => exact ⟨_, .operand scans (.of_head rfl rfl) mark, .descending phrase⟩

variable (builtIn : w.BuiltIn d)

include builtIn

/-- There are as many terms as are asked for. -/
theorem scans_orderText (quotes : d.Quotes bindings) {order : Order}
    (admits : ∀ e, order = .computed e → (w.context bindings arguments).Admits d hollow openers e)
    {text : String} (ordered : w.orderText bindings order arguments = .ok text) :
    ∃ lexemes, d.ScansTo openers text lexemes ∧
      Listed (SortPhrase hollow) order.length lexemes := by
  cases order with
  | keys keys =>
      cases bindings with
      | nil => cases ordered
      | cons b rest =>
          cases rest with
          | cons => cases ordered
          | nil =>
              obtain ⟨columns, found, ended⟩ := Except.bind_eq_ok_iff.1 ordered
              obtain rfl := Except.ok.inj ended
              have looked := Except.mapM_eq_ok_iff.1 found
              have count : (columns.map Column.quotedName).length = keys.length := by
                rw [List.length_map, looked.length_eq]
              rw [Order.length, ← count]
              refine scans_listed fun text member => ?_
              obtain ⟨column, among, rfl⟩ := List.mem_map.1 member
              obtain ⟨key, -, present⟩ := looked.flip.exists_of_mem among
              rw [quotes b (List.mem_singleton_self b) _ (Table.mem_of_lookup present)]
              exact ⟨_, .quoteName _, .ascending (.name _)⟩
  | computed e =>
      obtain ⟨stripped, made, rest⟩ := Except.bind_eq_ok_iff.1 ordered
      obtain ⟨fragments, listed, ended⟩ := Except.bind_eq_ok_iff.1 rest
      obtain rfl := Except.ok.inj ended
      have admits := (admits e rfl).stripped made
      have body : stripped.body.entries = (e.body.entries.map Term.sortKey).map Prod.fst := by
        unfold Lambda.make at made
        split at made
        · obtain rfl := Except.ok.inj made
          rfl
        · cases made
      have count : (fragments.zip (e.body.entries.map Term.sortKey)).length =
          e.body.entries.length := by
        rw [List.length_zip, length_columns listed, body]
        simp
      rw [Order.length, ← count, ← List.length_map]
      refine scans_listed fun text member => ?_
      obtain ⟨⟨f, t, descending⟩, zipped, rfl⟩ := List.mem_map.1 member
      have spells := admits.spells (builtIn.context quotes _)
        (.columns listed (List.of_mem_zip zipped).1)
      exact scans_sortText spells descending

end BuiltinDialect

end RowQuery
