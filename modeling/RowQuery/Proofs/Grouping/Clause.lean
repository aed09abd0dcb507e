import RowQuery.Proofs.Grouping.Place
import RowQuery.Proofs.Query.FromClause
import RowQuery.Proofs.Query.LimitStyle

/-!
# Aggregates of terms

No aggregate stands in the operand of another one in the SQL of a term, unless the term calls them
that way.  And all names stand in operands of aggregates, unless the term reads a column outside of
them.
-/

namespace RowQuery

open RowQuery.Sql BuiltinDialect CompileContext

namespace Term

/-- An aggregate is called in the operand of another one. -/
def NestsAggregates (l : FunctionLibrary) (t : Term) : Prop :=
  ∃ s, t.GoesThrough s ∧ s.IsAggregate l ∧ ∃ u ∈ s.ingredients, u.HasAggregate l

/-- A column is read outside of all aggregates. -/
inductive ReadsColumn (l : FunctionLibrary) : Term → Prop
  | column (i : Nat) (key : String) : ReadsColumn l (field (param i) key)
  | ingredient {t u : Term} (other : ¬ t.IsAggregate l) (among : u ∈ t.ingredients)
      (reads : ReadsColumn l u) : ReadsColumn l t

/-- An aggregate is called next to a column outside of all aggregates. -/
def MixesAggregate (l : FunctionLibrary) (t : Term) : Prop :=
  t.HasAggregate l ∧ t.ReadsColumn l

theorem nestsAggregates_iff {l : FunctionLibrary} {t : Term} : t.NestsAggregates l ↔
    (t.IsAggregate l ∧ ∃ u ∈ t.ingredients, u.HasAggregate l) ∨
      ∃ u ∈ t.ingredients, u.NestsAggregates l := by
  constructor
  · rintro ⟨s, through, nests⟩
    rcases through.cases_head with rfl | ⟨u, among, later⟩
    · exact .inl nests
    · exact .inr ⟨u, among, s, later, nests⟩
  · rintro (nests | ⟨u, among, s, later, nests⟩)
    · exact ⟨t, .refl, nests⟩
    · exact ⟨s, .head among later, nests⟩

theorem readsColumn_iff {l : FunctionLibrary} {t : Term} : t.ReadsColumn l ↔
    (∃ i key, t = field (param i) key) ∨
      ¬ t.IsAggregate l ∧ ∃ u ∈ t.ingredients, u.ReadsColumn l := by
  constructor
  · rintro (⟨i, key⟩ | ⟨other, among, reads⟩)
    · exact .inl ⟨i, key, rfl⟩
    · exact .inr ⟨other, _, among, reads⟩
  · rintro (⟨i, key, rfl⟩ | ⟨other, u, among, reads⟩)
    · exact .column i key
    · exact .ingredient other among reads

variable {c : CompileContext} {d : BuiltinDialect} {params : List String} {rule : PlaceRule}
variable {allows : rule.AllowsFixed}

theorem NestsAggregates.of_goesThrough {l : FunctionLibrary} {t s : Term}
    (through : t.GoesThrough s) (nests : s.NestsAggregates l) : t.NestsAggregates l :=
  nests.imp fun _ ⟨later, inside⟩ => ⟨through.trans later, inside⟩

/-- A rule for places is kept by one step of the compiler.  If this calls an aggregate, everything
in the operand has to be allowed there. -/
theorem obeys_place (regular : c.Regular d) (lawful : c.functions.Lawful) {t : Term}
    (words : ∀ letters, rule (.word letters) false = true)
    (columns : ∀ i key q, t = field (param i) key → c.column i key = .ok q →
      q.fragment.Obeys (d.placeLaw rule allows))
    (inside : t.IsAggregate c.functions → ∀ u ∈ t.ingredients, ∀ q, u.compile c params = .ok q →
      ∀ lexemes, d.lexemes? (c.operand q).sql = some lexemes →
        ∀ lexeme ∈ lexemes, rule lexeme true = true)
    (each : ¬ t.IsAggregate c.functions → ∀ u ∈ t.ingredients, ∀ q, u.compile c params = .ok q →
      q.fragment.Obeys (d.placeLaw rule allows))
    {p : Piece} (compiled : t.compile c params = .ok p) :
    p.fragment.Obeys (d.placeLaw rule allows) := by
  have isLawful {f : Function} (called : t.function? c.functions = some f) : f.Lawful := by
    cases t with
    | call name operands => exact lawful.functions name f called
    | method target name operands => exact lawful.methods name f called
    | _ => cases called
  by_cases own : t.IsAggregate c.functions
  · obtain ⟨f, called, aggregate⟩ := own
    obtain ⟨name, pieces, made, ended⟩ := call_of_compile called compiled
    rcases call_eq_ok ended with ⟨ks, v, -, -, -, literal⟩ | written
    · exact obeys_literal regular literal
    obtain ⟨rendering, rendered, rfl⟩ := rendered_eq_ok written
    rw [regular.dialect] at rendered
    have call := (isLawful called).calls aggregate d _ _ rendered
    refine holds_aggregateCall call words fun operand member => ?_
    obtain ⟨q, among, rfl⟩ := List.mem_map.1 member
    obtain ⟨u, ingredient, compiledAs⟩ := made q among
    have reaches : (c.operand q).Reaches d c.reach :=
      obeys_operand regular (compile_reaches regular compiledAs)
    obtain ⟨lexemes, found, -, closed⟩ := reaches
    exact ⟨lexemes, found, closed,
      inside ⟨f, called, aggregate⟩ u ingredient q compiledAs lexemes found⟩
  · have keeps (f : Function) (called : t.function? c.functions = some f) :
        f.Keeps (d.placeLaw rule allows) :=
      (isLawful called).keeps (Bool.eq_false_iff.2 fun aggregate => own ⟨f, called, aggregate⟩) _
    exact obeys_of_ingredients regular columns keeps (each own) compiled

theorem obeys_of_isLiteral {law : d.Law} (regular : c.Regular d) {p : Piece}
    (literal : p.IsLiteral c) : p.fragment.Obeys law := by
  obtain ⟨v, q, written, text, plain⟩ := literal
  have obeys : q.fragment.Obeys law := obeys_literal regular written
  rwa [Fragment.Obeys, aggregate_of_literal written, ← text, ← plain] at obeys

/-- A term without aggregates is not marked as one. -/
theorem unmarked (sound : c.functions.Sound) {t : Term} (none_ : ¬ t.HasAggregate c.functions)
    {p : Piece} (compiled : t.compile c params = .ok p) : p.fragment.aggregate = false := by
  rcases compile_markedBy sound compiled with ⟨_, _, -, -, plain⟩ | ⟨-, marked⟩
  · exact plain
  · exact Bool.eq_false_iff.2 fun aggregate => none_ (marked aggregate)

variable (regular : c.Regular d) (lawful : c.functions.Lawful)

include regular lawful

/-- Aggregates are not nested in the SQL of a term that does not nest them. -/
theorem obeys_apart (sound : c.functions.Sound) {t : Term}
    (unnested : ¬ t.NestsAggregates c.functions) {p : Piece}
    (compiled : t.compile c params = .ok p) :
    p.fragment.Obeys (d.placeLaw apart allowsFixed_apart) := by
  refine obeys_place regular lawful (fun _ => by simp [apart]) (fun i key q same found => ?_)
    (fun own u among q ended lexemes found lexeme member => ?_) (fun _ u among q ended => ?_)
    compiled
  · have inReach := (reaches_column regular found).inReach (open_of_column found).2
    exact inReach.holds_place PlaceRule.isOpen_apart
  · have none_ : ¬ u.HasAggregate c.functions := fun has => unnested ⟨t, .refl, own, u, among, has⟩
    have reaches : (c.operand q).Reaches d c.reach :=
      obeys_operand regular (compile_reaches regular ended)
    have plain : (c.operand q).aggregate = false := by
      rw [aggregate_operand, unmarked sound none_ ended]
    obtain ⟨_, same, allowed, -⟩ := reaches.inReach plain
    obtain rfl := Option.some.inj (found.symm.trans same)
    simp [apart, (allowed lexeme member).isAggregate_eq]
  · exact obeys_apart sound (fun nests => unnested (.of_goesThrough (.single among) nests)) ended
termination_by t
decreasing_by exact sizeOf_lt_of_mem_ingredients among

/-- All names stand in aggregates in the SQL of a term that reads columns there only. -/
theorem obeys_collected {t : Term} (reads : ¬ t.ReadsColumn c.functions) {p : Piece}
    (compiled : t.compile c params = .ok p) :
    p.fragment.Obeys (d.placeLaw collected allowsFixed_collected) := by
  refine obeys_place regular lawful (fun _ => rfl) (fun i key q same found => ?_)
    (fun _ _ _ _ _ _ _ _ _ => by simp [collected]) (fun other u among q ended => ?_) compiled
  · exact absurd (same ▸ .column i key) reads
  · exact obeys_collected (fun inner => reads (.ingredient other among inner)) ended
termination_by t
decreasing_by exact sizeOf_lt_of_mem_ingredients among

end Term

end RowQuery

/-!
# Aggregates in clauses

Aggregates are called by the fields of a SELECT and by its order only.  The other clauses call none,
so that the whole statement follows a rule for places if its fields and its order do.
-/

namespace RowQuery

open RowQuery.Sql BuiltinDialect Number

namespace BuiltinDialect

variable {d : BuiltinDialect} {rule : PlaceRule} {fixed sql : String} {texts : List String}

/-! ## Texts that are put together -/

/-- A fixed text without aggregates that anything can follow. -/
def leads (d : BuiltinDialect) (fixed : String) : Bool :=
  match Scanner.idle.run d fixed.toList with
  | some (lexemes, .idle) => lexemes.all fun lexeme => !lexeme.isAggregate
  | _ => false

section

variable (isOpen : rule.IsOpen)

include isOpen

theorem Accepts.behind (leads : d.leads fixed = true) (accepts : d.Accepts rule sql) :
    d.Accepts rule (fixed ++ sql) := by
  unfold BuiltinDialect.leads at leads
  split at leads
  · rename_i lexemes ran
    rw [List.all_eq_true] at leads
    have plain (lexeme : Lexeme) (member : lexeme ∈ lexemes) : lexeme.isAggregate = false := by
      simpa using leads lexeme member
    obtain ⟨later, found, back⟩ := accepts
    have front : rule.Accepts lexemes :=
      PlaceRule.accepts_of_plain plain fun lexeme member => isOpen lexeme (plain lexeme member)
    exact ⟨lexemes ++ later, lexemes?_append_of_idle ran found, front.append back⟩
  · cases leads

theorem Accepts.join {between : String} (leads : d.leads between = true)
    (separated : Separated between) (present : between ≠ "")
    (each : ∀ sql ∈ texts, d.Accepts rule sql) : d.Accepts rule (Text.join between texts) := by
  induction texts with
  | nil => exact ⟨[], rfl, PlaceRule.accepts_nil rule⟩
  | cons sql rest ih =>
      rw [List.forall_mem_cons] at each
      cases rest with
      | nil => exact each.1
      | cons other rest =>
          rw [Text.join, String.append_assoc]
          · exact each.1.append (separated_append separated present)
              (Accepts.behind isOpen leads (ih each.2))
          · exact List.cons_ne_nil _ _

theorem Accepts.list (each : ∀ sql ∈ texts, d.Accepts rule sql) :
    d.Accepts rule (Text.join ", " texts) :=
  .join isOpen (by cases d <;> rfl) (separated_of_head rfl rfl) (by decide) each

theorem Accepts.spaced (each : ∀ sql ∈ texts, d.Accepts rule sql) :
    d.Accepts rule (spaced texts) :=
  .join isOpen (by cases d <;> rfl) (separated_of_head rfl rfl) (by decide) each

theorem Accepts.bracketed (accepts : d.Accepts rule sql) :
    d.Accepts rule (Text.bracketed sql) := by
  have closing : d.NoAggregate ")" := by cases d <;> decide
  rw [Text.bracketed, String.append_assoc]
  exact .behind isOpen (by cases d <;> rfl)
    (accepts.append separated_bracket (closing.accepts isOpen))

theorem accepts_quoteName (name : String) : d.Accepts rule (d.dialect.quoteName name) :=
  NoAggregate.accepts (noAggregate_iff.2 ⟨_, lexemes?_quoteName name, by simp [Lexeme.isAggregate]⟩)
    isOpen

theorem accepts_fieldText (accepts : d.Accepts rule sql) (name : String) :
    d.Accepts rule (d.workspace.fieldText sql name) := by
  have under : d.Accepts rule (" AS " ++ d.dialect.quoteName name) :=
    .behind isOpen (by cases d <;> rfl) (accepts_quoteName isOpen name)
  rw [Workspace.fieldText, String.append_assoc]
  exact accepts.append (separated_append (separated_of_head rfl rfl) (by decide)) under

end

/-! ## Clauses without aggregates -/

theorem noAggregate_spaced (each : ∀ sql ∈ texts, d.NoAggregate sql) :
    d.NoAggregate (spaced texts) :=
  (Accepts.spaced PlaceRule.isOpen_plain fun sql member =>
    (each sql member).accepts PlaceRule.isOpen_plain).noAggregate

theorem noAggregate_natText (n : Nat) : d.NoAggregate (natText n) := by
  have number : IsNumber (natText n).toList := by
    rw [natText, String.toList_ofList]
    exact .of_digits (isDigit_of_mem_digits n)
  have holds : (d.reachLaw ⟨[], false⟩).Holds false (natText n) := .number number
  exact InReach.noAggregate holds

theorem noAggregate_topClause (style : LimitStyle) (q : Query) :
    ∀ clause ∈ (d.workspace.withLimits style).topClause q, d.NoAggregate clause := by
  unfold Workspace.topClause
  split
  · rename_i limit _
    split
    · have number := (noAggregate_natText (d := d) limit).accepts PlaceRule.isOpen_plain
      have clause : d.Accepts plain ("TOP " ++ natText limit) :=
        .behind PlaceRule.isOpen_plain (by cases d <;> rfl) number
      simpa using clause.noAggregate
    · simp
  · simp

theorem noAggregate_limitText {unlimited : Option String}
    (known : ∀ limit ∈ unlimited, d.NoAggregate limit) (limit offset : Option Nat) :
    ∀ clause ∈ limitText unlimited limit offset, d.NoAggregate clause := by
  have limitWord : d.NoAggregate "LIMIT" := by cases d <;> decide
  have offsetWord : d.NoAggregate "OFFSET" := by cases d <;> decide
  intro clause member
  cases limit with
  | some limit =>
      cases offset with
      | some offset =>
          obtain rfl := Option.some.inj member
          exact noAggregate_spaced (by simp [limitWord, offsetWord, noAggregate_natText])
      | none =>
          obtain rfl := Option.some.inj member
          exact noAggregate_spaced (by simp [limitWord, noAggregate_natText])
  | none =>
      cases offset with
      | some offset =>
          cases unlimited with
          | some most =>
              obtain rfl := Option.some.inj member
              exact noAggregate_spaced (by
                simp [limitWord, known most rfl, offsetWord, noAggregate_natText])
          | none =>
              obtain rfl := Option.some.inj member
              exact noAggregate_spaced (by simp [offsetWord, noAggregate_natText])
      | none => cases member

theorem noAggregate_limitClause (style : LimitStyle) (q : Query) :
    ∀ clause ∈ (d.workspace.withLimits style).limitClause q, d.NoAggregate clause := by
  obtain ⟨unlimited, same, known⟩ : ∃ unlimited,
      (d.workspace.withLimits style).dialect.limitClause = limitText unlimited ∧
        ∀ limit ∈ unlimited, d.NoAggregate limit := by
    cases d with
    | ansi | postgres => exact ⟨none, rfl, by simp⟩
    | sqlite => exact ⟨some "-1", rfl, by simp; decide⟩
    | mysql => exact ⟨some "18446744073709551615", rfl, by simp; decide⟩
  unfold Workspace.limitClause
  split
  · simp
  · simpa [same] using noAggregate_limitText known q.limit q.offset

/-! ## Relations -/

theorem noAggregate_tableText {b : Binding}
    (named : b.table.quotedName = d.dialect.quoteName b.table.name) :
    d.NoAggregate (d.workspace.tableText b) := by
  have table : d.Accepts plain b.table.quotedName :=
    named ▸ accepts_quoteName PlaceRule.isOpen_plain b.table.name
  unfold Workspace.tableText
  split
  · exact table.noAggregate
  · exact (accepts_fieldText PlaceRule.isOpen_plain table b.label).noAggregate

theorem noAggregate_joinText {kind : JoinKind} {l r : Relation} {left right condition : String}
    (leftPlain : d.NoAggregate left) (rightPlain : d.NoAggregate right)
    (conditionPlain : d.NoAggregate condition) :
    d.NoAggregate (d.workspace.joinText kind l r left right condition) := by
  have onWord : d.NoAggregate "ON" := by cases d <;> decide
  have keyword (kind : JoinKind) : d.NoAggregate kind.keyword := by
    cases d <;> cases kind <;> decide
  have behind {r : Relation} {text : String} (plain : d.NoAggregate text) :
      d.NoAggregate (if r.isJoin then Text.bracketed text else text) := by
    split
    · exact (Accepts.bracketed PlaceRule.isOpen_plain
        (plain.accepts PlaceRule.isOpen_plain)).noAggregate
    · exact plain
  unfold Workspace.joinText
  dsimp only
  split
  · exact noAggregate_spaced (by
      simp [rightPlain, keyword, behind leftPlain, onWord, conditionPlain])
  · exact noAggregate_spaced (by
      simp [leftPlain, keyword, behind rightPlain, onWord, conditionPlain])

/-- The text of a relation calls no aggregate. -/
theorem ensures_relationText_plain (arguments : Arguments) (r : Relation) {bindings : List Binding}
    (tables : bindings.map Binding.table = r.tables)
    (wellFormed : ∀ t ∈ r.tables, t.WellFormed d.dialect) :
    Memoized.Ensures d.workspace d.Asks (d.workspace.relationText arguments r bindings)
      fun text => d.NoAggregate text := by
  induction r generalizing bindings with
  | table t =>
      obtain ⟨b, rfl, rfl⟩ := List.map_eq_singleton_iff.1 tables
      have named := (wellFormed b.table (List.mem_singleton.2 rfl)).quotedTable
      exact Memoized.ensures_pure (noAggregate_tableText named)
  | join kind left right path ihLeft ihRight =>
      obtain ⟨nearTables, farTables⟩ := Relation.map_table_sides tables
      have ensuresLeft := ihLeft nearTables fun t member =>
        wellFormed t (List.mem_append_left right.tables member)
      have ensuresRight := ihRight farTables fun t member =>
        wellFormed t (List.mem_append_right left.tables member)
      have whole : bindings.take left.size ++ bindings.drop left.size = bindings :=
        List.take_append_drop _ _
      have quotes := whole.symm ▸ quotes_of_wellFormed tables wellFormed
      refine ensuresLeft.bind fun leftText leftPlain => ?_
      refine ensuresRight.bind fun rightText rightPlain => ?_
      refine (ensures_joinCondition d.regular_workspace quotes path).bind fun sql inReach => ?_
      exact Memoized.ensures_pure (noAggregate_joinText leftPlain rightPlain inReach.noAggregate)

end BuiltinDialect

/-! ## SELECT -/

/-- The clauses of a SELECT, from the parts that are compiled. -/
def Workspace.selectClauses (w : Workspace) (q : Query) (relation : String) (selection : Selection)
    (restriction order : List String) : List String :=
  ["SELECT"] ++ (if q.distinct then ["DISTINCT"] else []) ++ w.topClause q ++
    [Text.join ", " selection.fields, "FROM " ++ relation] ++ restriction ++
    groupClause selection ++ order ++ w.limitClause q

namespace BuiltinDialect

/-- What a SELECT is made of, with its limits in some place. -/
structure Selects (d : BuiltinDialect) (style : LimitStyle) (q : Query) (compiled : CompiledQuery)
    (relation : String) (selection : Selection) (restriction order : List String) : Prop where
  text : compiled.sql =
    spaced ((d.workspace.withLimits style).selectClauses q relation selection restriction order)
  selected : d.workspace.selection q.relation.bindings q.projection q.arguments = .ok selection
  ordered : d.workspace.orderClause q.relation.bindings q = .ok order
  relation : d.NoAggregate relation
  restriction : ∀ clause ∈ restriction, d.NoAggregate clause
  exact_ : selection.aggregate = true → compiled.exact = true

variable {d : BuiltinDialect}

theorem ensures_select_parts (style : LimitStyle) {q : Query} (strict : Bool)
    (wellFormed : ∀ t ∈ q.relation.tables, t.WellFormed d.dialect) :
    Memoized.Ensures (d.workspace.withLimits style) d.Asks
      ((d.workspace.withLimits style).select strict q) fun compiled =>
        ∃ relation selection restriction order,
          d.Selects style q compiled relation selection restriction order := by
  have isStandard : d.workspace.functions.IsStandard := .inl rfl
  have ignores := isStandard.ignoresLimits
  have quotes := quotes_of_wellFormed q.relation.map_table_bindings wellFormed
  have chosen : Memoized.Ensures (d.workspace.withLimits style) d.Asks (liftM (d.workspace.selection
      q.relation.bindings q.projection q.arguments)) fun s =>
        d.workspace.selection q.relation.bindings q.projection q.arguments = .ok s :=
    Memoized.ensures_liftM fun _ same => same
  have ordered : Memoized.Ensures (d.workspace.withLimits style) d.Asks
      (liftM (d.workspace.orderClause q.relation.bindings q)) fun order =>
        d.workspace.orderClause q.relation.bindings q = .ok order :=
    Memoized.ensures_liftM fun _ same => same
  unfold Workspace.select
  simp only [Workspace.relationText_withLimits ignores, Workspace.selection_withLimits ignores,
    Workspace.queryRestriction_withLimits ignores, Workspace.orderClause_withLimits ignores]
  refine ((ensures_relationText_plain q.arguments q.relation q.relation.map_table_bindings
    wellFormed).withLimits ignores style).bind fun relation relationPlain => ?_
  refine chosen.bind fun selection selected => ?_
  split
  · exact Memoized.ensures_throw_bind _ _
  · refine ((ensures_queryRestriction quotes strict q selection).withLimits ignores style).bind
      fun clauses spec => ?_
    refine ordered.bind fun order ordered => Memoized.ensures_pure ?_
    exact ⟨relation, selection, clauses.1, order, rfl, selected, ordered, relationPlain, spec.1,
      spec.2⟩

/-- A SELECT follows a rule for places if its fields, groups and sort terms do. -/
theorem Selects.accepts {rule : PlaceRule} (isOpen : rule.IsOpen) {style : LimitStyle}
    {q : Query} {compiled : CompiledQuery} {relation : String} {selection : Selection}
    {restriction order : List String}
    (selects : d.Selects style q compiled relation selection restriction order)
    (fields : ∀ field ∈ selection.fields, d.Accepts rule field)
    (groups : ∀ group ∈ selection.groups, d.Accepts rule group)
    (sorts : ∀ clause ∈ order, d.Accepts rule clause) : d.Accepts rule compiled.sql := by
  have accept {texts : List String} (each : ∀ text ∈ texts, d.NoAggregate text) :
      ∀ text ∈ texts, d.Accepts rule text := fun text member => (each text member).accepts isOpen
  have keyword : ∀ text ∈ ["SELECT"], d.NoAggregate text := by cases d <;> simp <;> decide
  have distinct : ∀ text ∈ (if q.distinct then ["DISTINCT"] else []), d.NoAggregate text := by
    cases q.distinct <;> cases d <;> simp <;> decide
  have source : d.Accepts rule ("FROM " ++ relation) :=
    .behind isOpen (by cases d <;> rfl) (selects.relation.accepts isOpen)
  have grouping : ∀ text ∈ Workspace.groupClause selection, d.Accepts rule text := by
    unfold Workspace.groupClause
    split
    · simp
    · simpa using Accepts.behind isOpen (by cases d <;> rfl) (Accepts.list isOpen groups)
  rw [selects.text]
  refine .spaced isOpen ?_
  simp only [Workspace.selectClauses, List.forall_mem_append]
  refine ⟨⟨⟨⟨⟨⟨⟨accept keyword, accept distinct⟩, accept (noAggregate_topClause style q)⟩, ?_⟩,
    accept selects.restriction⟩, grouping⟩, sorts⟩, accept (noAggregate_limitClause style q)⟩
  simpa using ⟨Accepts.list isOpen fields, source⟩

end BuiltinDialect

end RowQuery
