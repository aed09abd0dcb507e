import RowQuery.Proofs.Grouping.Clause
import RowQuery.Proofs.Query.OutputName

/-!
# Grouped SELECT statements

A SELECT next to an aggregate groups its rows by the fields that are not marked.  That is enough
where no field calls an aggregate next to a column of its own, and aggregates are not nested where
no term nests them.  The order is not looked at when a restriction accepts rows too many, so that
there is an aggregate in it wherever a term to sort by calls one.
-/

namespace RowQuery

open RowQuery.Sql BuiltinDialect CompileContext Term

/-- A term to sort by calls an aggregate. -/
def Query.SortsByAggregate (q : Query) (l : FunctionLibrary) : Prop :=
  ∃ e, q.order = some (.computed e) ∧ e.body.HasAggregate l

namespace BuiltinDialect

variable {d : BuiltinDialect} {rule : PlaceRule} {bindings : List Binding} {arguments : Arguments}
variable {e : Lambda}

/-! ## Fields -/

/-- The fields of a computed projection, and those of them that the rows are grouped by. -/
structure Computes (d : BuiltinDialect) (selection : Selection) (fragments : List Fragment) :
    Prop where
  field : ∀ field ∈ selection.fields, ∃ f ∈ fragments, ∃ name,
    field = d.workspace.fieldText f.sql name
  written : ∀ f ∈ fragments, ∃ name, d.workspace.fieldText f.sql name ∈ selection.fields
  group : ∀ group ∈ selection.groups, ∃ f ∈ fragments, group = f.sql ∧ f.aggregate = false
  grouped : selection.aggregate = true → ∀ f ∈ fragments, f.aggregate = false →
    f.constant = none → f.sql ∈ selection.groups

theorem computes_selection {selection : Selection}
    (selected : d.workspace.selection bindings (.computed e) arguments = .ok selection) :
    ∃ fragments, (d.workspace.context bindings arguments).columns e = .ok fragments ∧
      d.Computes selection fragments := by
  obtain ⟨fragments, listed, ended⟩ := Except.bind_eq_ok_iff.1 selected
  obtain rfl := Except.ok.inj ended
  refine ⟨fragments, listed, ?_, fun f among => ?_, fun group member => ?_,
    fun aggregate f among plain open_ => ?_⟩
  · intro field member
    obtain ⟨⟨⟨f, source⟩, name⟩, named, rfl⟩ := List.mem_map.1 member
    exact ⟨f, (List.of_mem_zip (List.of_mem_zip named).1).1, name, rfl⟩
  · dsimp only
    generalize names : outputNames _ = taken
    have sources :
        fragments.length = (e.body.entries.map (Workspace.sourceOf bindings)).length := by
      rw [length_columns listed, List.length_map]
    have count : (fragments.zip (e.body.entries.map (Workspace.sourceOf bindings))).length =
        taken.length := by
      rw [← names]
      simp [length_outputNames]
    have firsts := List.map_fst_zip count.le
    have whole := List.map_fst_zip sources.le
    rw [← whole, ← firsts, List.map_map] at among
    obtain ⟨place, named, rfl⟩ := List.mem_map.1 among
    exact ⟨place.2, List.mem_map.2 ⟨place, named, rfl⟩⟩
  · dsimp only at member
    split at member
    · obtain ⟨f, among, rfl⟩ := List.mem_map.1 member
      obtain ⟨among, kept⟩ := List.mem_filter.1 among
      rw [Bool.and_eq_true, Bool.not_eq_true'] at kept
      exact ⟨f, among, rfl, kept.1⟩
    · cases member
  · dsimp only at aggregate ⊢
    rw [if_pos aggregate]
    have kept : (!f.aggregate && !f.isConstant) = true := by
      simp [plain, Fragment.isConstant, open_]
    exact List.mem_map_of_mem (List.mem_filter.2 ⟨among, kept⟩)

/-! ## Sort terms -/

/-- The fragment of a column is like the piece of its term. -/
theorem accepts_column (allows : rule.AllowsFixed) (quotes : d.Quotes bindings)
    {fragments : List Fragment}
    (listed : (d.workspace.context bindings arguments).columns e = .ok fragments)
    (each : ∀ t ∈ e.body.entries, ∀ p,
      t.compile (d.workspace.context bindings arguments) e.params = .ok p →
        p.fragment.Obeys (d.placeLaw rule allows)) : ∀ f ∈ fragments, d.Accepts rule f.sql := by
  intro f among
  obtain ⟨t, entry, p, compiled, same⟩ := columns_mem listed among
  have operand := obeys_operand (d.regular_workspace.context quotes arguments)
    (each t entry p compiled)
  have sql : f.sql = ((d.workspace.context bindings arguments).operand p).sql := by rw [same]
  exact sql ▸ Law.Holds.accepts operand

variable {allows : rule.AllowsFixed}

/-- The pieces of all terms that the order goes through obey a rule. -/
def SortsObey (bindings : List Binding) (order : Option Order) (arguments : Arguments)
    (law : d.Law) : Prop :=
  ∀ e, order = some (.computed e) → ∀ t, e.body.GoesThrough t → ∀ p,
    t.compile (d.workspace.context bindings arguments) e.params = .ok p → p.fragment.Obeys law

theorem accepts_orderText (isOpen : rule.IsOpen) (quotes : d.Quotes bindings) {order : Order}
    (each : SortsObey bindings (some order) arguments (d.placeLaw rule allows))
    {text : String} (ordered : d.workspace.orderText bindings order arguments = .ok text) :
    d.Accepts rule text := by
  cases order with
  | keys keys =>
      cases bindings with
      | nil => cases ordered
      | cons b rest =>
          cases rest with
          | cons => cases ordered
          | nil =>
              obtain ⟨columns, found, ended⟩ := Except.bind_eq_ok_iff.1 ordered
              obtain rfl := Except.ok.inj ended
              refine .list isOpen fun text member => ?_
              obtain ⟨column, among, rfl⟩ := List.mem_map.1 member
              obtain ⟨key, -, present⟩ :=
                (Except.mapM_eq_ok_iff.1 found).flip.exists_of_mem among
              rw [quotes b (List.mem_singleton_self b) _ (Table.mem_of_lookup present)]
              exact accepts_quoteName isOpen _
  | computed e =>
      obtain ⟨stripped, made, rest⟩ := Except.bind_eq_ok_iff.1 ordered
      obtain ⟨fragments, listed, ended⟩ := Except.bind_eq_ok_iff.1 rest
      obtain rfl := Except.ok.inj ended
      unfold Lambda.make at made
      split at made
      · obtain rfl := Except.ok.inj made
        have accepts : ∀ f ∈ fragments, d.Accepts rule f.sql := by
          refine accepts_column allows quotes listed fun u entry p compiled => ?_
          obtain ⟨_, key, rfl⟩ := List.mem_map.1 entry
          obtain ⟨v, among, rfl⟩ := List.mem_map.1 key
          exact each e rfl _ (goesThrough_sortKey among) p compiled
        have behind : d.NoAggregate " DESC" := by cases d <;> decide
        refine .list isOpen fun text member => ?_
        obtain ⟨⟨f, t, descending⟩, zipped, rfl⟩ := List.mem_map.1 member
        have key := accepts f (List.of_mem_zip zipped).1
        dsimp only
        split
        · exact key.append (separated_of_head rfl rfl) (behind.accepts isOpen)
        · exact key
      · cases made

theorem accepts_orderClause (isOpen : rule.IsOpen) (quotes : d.Quotes bindings) {q : Query}
    (each : SortsObey bindings q.order q.arguments (d.placeLaw rule allows))
    {order : List String} (ordered : d.workspace.orderClause bindings q = .ok order) :
    ∀ clause ∈ order, d.Accepts rule clause := by
  unfold Workspace.orderClause at ordered
  split at ordered
  · obtain rfl := Except.ok.inj ordered
    simp
  · rename_i order given
    obtain ⟨text, written, ended⟩ := Except.bind_eq_ok_iff.1 ordered
    obtain rfl := Except.ok.inj ended
    have accepts := accepts_orderText isOpen quotes (given ▸ each) written
    simpa using Accepts.behind isOpen (by cases d <;> rfl) accepts

/-! ## Statements -/

theorem Computes.accepts {selection : Selection} {fragments : List Fragment}
    (computes : d.Computes selection fragments) (isOpen : rule.IsOpen)
    (each : ∀ f ∈ fragments, d.Accepts rule f.sql) :
    (∀ field ∈ selection.fields, d.Accepts rule field) ∧
      ∀ group ∈ selection.groups, d.Accepts rule group := by
  constructor
  · intro field member
    obtain ⟨f, among, name, rfl⟩ := computes.field field member
    exact accepts_fieldText isOpen (each f among) name
  · intro group member
    obtain ⟨f, among, rfl, -⟩ := computes.group group member
    exact each f among

section

variable (quotes : d.Quotes bindings)

include quotes

/-- A field that mixes nothing groups the rows or has all its names in aggregates. -/
theorem grouped_or_collected {selection : Selection} {fragments : List Fragment}
    (listed : (d.workspace.context bindings arguments).columns e = .ok fragments)
    (computes : d.Computes selection fragments) (aggregate : selection.aggregate = true)
    (unmixed : ∀ t ∈ e.body.entries, ¬ t.MixesAggregate d.workspace.functions) {f : Fragment}
    (among : f ∈ fragments) : f.sql ∈ selection.groups ∨ d.Follows collected f.sql := by
  have regular := d.regular_workspace.context quotes arguments
  obtain ⟨t, entry, p, compiled, same⟩ := columns_mem listed among
  have sql : f.sql = ((d.workspace.context bindings arguments).operand p).sql := by rw [same]
  have mark : f.aggregate = p.fragment.aggregate := by
    rw [same]
    exact aggregate_operand p
  have known : f.constant = p.fragment.constant := by
    rw [same]
    exact operand_constant p
  have finished (obeys : p.fragment.Obeys (d.placeLaw collected PlaceRule.allowsFixed_collected)) :
      d.Follows collected f.sql :=
    sql ▸ (Law.Holds.accepts (obeys_operand regular obeys)).follows
  rcases compile_markedBy FunctionLibrary.sound_standard compiled with literal | ⟨open_, marked⟩
  · exact .inr (finished (obeys_of_isLiteral regular literal))
  · cases aggregates : p.fragment.aggregate with
    | false => exact .inl (computes.grouped aggregate f among (mark ▸ aggregates) (known ▸ open_))
    | true =>
        have reads : ¬ t.ReadsColumn d.workspace.functions := fun reads =>
          unmixed t entry ⟨marked aggregates, reads⟩
        exact .inr (finished
          (obeys_collected regular FunctionLibrary.lawful_standard reads compiled))

/-- A term without aggregates follows every rule that allows everything outside of them. -/
theorem obeys_of_none (isOpen : rule.IsOpen) {t : Term} {params : List String} {p : Piece}
    (none_ : ¬ t.HasAggregate d.workspace.functions)
    (compiled : t.compile (d.workspace.context bindings arguments) params = .ok p) :
    p.fragment.Obeys (d.placeLaw rule allows) := by
  have regular := d.regular_workspace.context quotes arguments
  have plain := unmarked FunctionLibrary.sound_standard none_ compiled
  exact ((compile_reaches regular compiled).inReach plain).holds_place isOpen

end

/-- With the standard functions, wherever limits stand, the aggregates of a SELECT with computed
columns are grouped, but for what the terms of its columns and of its order call for themselves.  In
the statement no aggregate stands in the operand of another one unless a term nests them.  What the
rows are grouped by are fields that call none.  If a field calls one, then each of them is among
these or has all its names in operands of aggregates, unless a term calls an aggregate next to a
column of its own.  The order calls an aggregate only if a term to sort by does.  And the fields of
a statement that is not exact call none, nor does anything else in it then, unless a term to sort by
does. -/
theorem aggregates_are_grouped (d : BuiltinDialect) (style : LimitStyle) {q : Query} {e : Lambda}
    (computed : q.projection = .computed e)
    (wellFormed : ∀ t ∈ q.relation.tables, t.WellFormed d.dialect) (strict : Bool) :
    Memoized.Ensures (d.workspace.withLimits style) d.Asks
      ((d.workspace.withLimits style).select strict q) fun compiled =>
      ∃ relation selection restriction order,
        d.Selects style q compiled relation selection restriction order ∧
        (¬ e.body.NestsAggregates .standard →
          (∀ e', q.order = some (.computed e') → ¬ e'.body.NestsAggregates .standard) →
          d.Follows apart compiled.sql) ∧
        (∀ group ∈ selection.groups, d.NoAggregate group ∧
          ∃ name, d.workspace.fieldText group name ∈ selection.fields) ∧
        ((∀ t ∈ e.body.entries, ¬ t.MixesAggregate .standard) →
          (∃ field ∈ selection.fields, ¬ d.NoAggregate field) →
          ∀ field ∈ selection.fields, ∃ sql name, field = d.workspace.fieldText sql name ∧
            (sql ∈ selection.groups ∨ d.Follows collected sql)) ∧
        (∀ clause ∈ order, ¬ d.NoAggregate clause → q.SortsByAggregate .standard) ∧
        (compiled.exact = false → (∀ field ∈ selection.fields, d.NoAggregate field) ∧
          (¬ q.SortsByAggregate .standard → d.NoAggregate compiled.sql)) := by
  have quotes := quotes_of_wellFormed q.relation.map_table_bindings wellFormed
  have regular := d.regular_workspace.context quotes q.arguments
  refine (ensures_select_parts style strict wellFormed).imp fun compiled parts => ?_
  obtain ⟨relation, selection, restriction, order, selects⟩ := parts
  have selected := selects.selected
  rw [computed] at selected
  obtain ⟨fragments, listed, computes⟩ := computes_selection selected
  have calls {field : String} (member : field ∈ selection.fields)
      (aggregate : ¬ d.NoAggregate field) : selection.aggregate = true :=
    aggregate_selection quotes selected member aggregate
  have groupPlain : ∀ group ∈ selection.groups, d.NoAggregate group := by
    intro group member
    obtain ⟨f, among, rfl, plain⟩ := computes.group group member
    obtain ⟨-, -, named⟩ := Except.bind_eq_ok_iff.1 listed
    exact ((reaches_namedValues regular named f among).inReach plain).noAggregate
  have sortsPlain (none_ : ¬ q.SortsByAggregate .standard) :
      ∀ clause ∈ order, d.Accepts plain clause := by
    have sorts : SortsObey q.relation.bindings q.order q.arguments
        (d.placeLaw plain PlaceRule.allowsFixed_plain) := fun e' given t through p compiled =>
      obeys_of_none quotes PlaceRule.isOpen_plain
        (fun has => none_ ⟨e', given, .of_goesThrough through has⟩) compiled
    exact accepts_orderClause PlaceRule.isOpen_plain quotes sorts selects.ordered
  refine ⟨relation, selection, restriction, order, selects, fun unnested unnestedOrder => ?_,
    fun group member => ⟨groupPlain group member, ?_⟩, fun unmixed some_ field member => ?_,
    fun clause member aggregate => ?_, fun inexact => ?_⟩
  · have apartOf {e : Lambda} (unnested : ¬ e.body.NestsAggregates .standard) (t : Term)
        (through : e.body.GoesThrough t) (p : Piece)
        (compiled : t.compile (d.workspace.context q.relation.bindings q.arguments) e.params =
          .ok p) : p.fragment.Obeys (d.placeLaw apart PlaceRule.allowsFixed_apart) :=
      obeys_apart regular FunctionLibrary.lawful_standard FunctionLibrary.sound_standard
        (fun nests => unnested (.of_goesThrough through nests)) compiled
    obtain ⟨fields, groups⟩ := computes.accepts PlaceRule.isOpen_apart
      (accepts_column PlaceRule.allowsFixed_apart quotes listed fun t entry =>
        apartOf unnested t (goesThrough_entry entry))
    have sorts := accepts_orderClause PlaceRule.isOpen_apart quotes
      (fun e' given => apartOf (unnestedOrder e' given)) selects.ordered
    exact (selects.accepts PlaceRule.isOpen_apart fields groups sorts).follows
  · obtain ⟨f, among, rfl, -⟩ := computes.group group member
    exact computes.written f among
  · obtain ⟨other, among, aggregate⟩ := some_
    obtain ⟨f, among', name, rfl⟩ := computes.field field member
    exact ⟨f.sql, name, rfl,
      grouped_or_collected quotes listed computes (calls among aggregate) unmixed among'⟩
  · by_contra none_
    exact aggregate (sortsPlain none_ clause member).noAggregate
  · have plainFields : ∀ field ∈ selection.fields, d.NoAggregate field := by
      intro field member
      by_contra aggregate
      cases (selects.exact_ (calls member aggregate)).symm.trans inexact
    refine ⟨plainFields, fun none_ => ?_⟩
    exact (selects.accepts PlaceRule.isOpen_plain
      (fun field member => (plainFields field member).accepts PlaceRule.isOpen_plain)
      (fun group member => (groupPlain group member).accepts PlaceRule.isOpen_plain)
      (sortsPlain none_)).noAggregate

section Totals

theorem wellFormed_sales : sales.WellFormed sqlite.dialect where
  quoted := by simp [sales]; decide
  keys := by simp [sales]
  names := by simp [sales]
  indices := by simp [sales]
  references := by simp [sales]
  quotedTable := rfl
  quotedIndices := by simp [sales]
  ownIndices := by simp [sales]

/-- The amounts of all rows together. -/
def total : Term :=
  .call "sum" [.field (.param 0) "amount"]

/-- The totals of the three regions with the fewest sales. -/
def totals : Query where
  relation := .table sales
  projection := .computed
    { params := ["s"], body := .tuple [.field (.param 0) "region", total], bound := by decide }
  order := some (.computed { params := ["s"], body := .call "count" [], bound := by decide })
  limit := some 3

/-- The northern regions in an order that counts rows. -/
def countedNorthern : Query where
  relation := .table sales
  projection := .computed
    { params := ["s"], body := .tuple [.field (.param 0) "region"], bound := by decide }
  restriction := some northern
  order := totals.order

/-- A total of totals, and a total that an amount is added to. -/
def muddled : Query where
  relation := .table sales
  projection := .computed
    { params := ["s"]
      body := .tuple [.call "sum" [total], .arithmetic total .add (.field (.param 0) "amount")]
      bound := by decide }

theorem total_isAggregate : total.IsAggregate .standard := by
  decide

theorem not_nestsAggregates_region_total :
    ¬ (tuple [field (param 0) "region", total]).NestsAggregates .standard := by
  have column (key : String) : ¬ (field (param 0) key).NestsAggregates .standard := by
    rw [nestsAggregates_iff]
    simp [ingredients]
  have amount : ¬ (field (param 0) "amount").HasAggregate .standard := by
    rw [hasAggregate_iff]
    simp [IsAggregate, function?, ingredients]
  have unnested : ¬ total.NestsAggregates .standard := by
    rw [total, nestsAggregates_iff]
    simp [ingredients, parts, amount, column]
  rw [nestsAggregates_iff]
  simp [ingredients, parts, IsAggregate, function?, column, unnested]

theorem not_mixesAggregate_region_total :
    ∀ t ∈ [field (param 0) "region", total], ¬ t.MixesAggregate .standard := by
  have region : ¬ (field (param 0) "region").HasAggregate .standard := by
    rw [hasAggregate_iff]
    simp [IsAggregate, function?, ingredients]
  have collects : ¬ total.ReadsColumn .standard := by
    rw [readsColumn_iff, not_or]
    exact ⟨by simp [total], fun outside => outside.1 total_isAggregate⟩
  simp [MixesAggregate, region, collects]

/-- Totals by region are grouped, also in the order of a count.  To count rows in the order only, to
add up a total or to add an amount to one is not grouped. -/
theorem totals_are_grouped :
    (∃ compiled, ((sqlite.workspace.withLimits .top).select false totals).run none =
        (.ok compiled, none) ∧
      compiled.sql = r#"SELECT TOP 3 "region" AS "region", SUM("amount") AS "sum" "# ++
        r#"FROM "sales" GROUP BY "region" ORDER BY COUNT(*)"# ∧
      sqlite.Follows apart compiled.sql ∧
      ∃ selection, sqlite.workspace.selection totals.relation.bindings totals.projection [] =
          .ok selection ∧
        selection.groups = [r#""region""#] ∧
        ∀ field ∈ selection.fields, ∃ sql name, field = sqlite.workspace.fieldText sql name ∧
          (sql ∈ selection.groups ∨ sqlite.Follows collected sql)) ∧
    (∃ compiled, (sqlite.workspace.select false countedNorthern).run none = (.ok compiled, none) ∧
      compiled.sql = r#"SELECT "region" AS "region" FROM "sales" "# ++
        r#"WHERE "region" LIKE 'N%' ESCAPE '\' ORDER BY COUNT(*)"# ∧
      compiled.exact = false ∧ ¬ sqlite.NoAggregate compiled.sql ∧
      countedNorthern.SortsByAggregate .standard) ∧
    ∃ compiled, (sqlite.workspace.select false muddled).run none = (.ok compiled, none) ∧
      compiled.sql = r#"SELECT SUM(SUM("amount")) AS "sum", (SUM("amount") + "amount") "# ++
        r#"AS "expr2" FROM "sales""# ∧
      ¬ sqlite.Follows apart compiled.sql ∧
      ¬ sqlite.Follows collected r#"(SUM("amount") + "amount")"# := by
  have wellFormed (q : Query) (source : q.relation = .table sales) :
      ∀ t ∈ q.relation.tables, t.WellFormed sqlite.dialect := by
    simp [source, Relation.tables, wellFormed_sales]
  refine ⟨?_, ?_, ?_⟩
  · obtain ⟨compiled, ran, text⟩ : ∃ compiled,
        ((sqlite.workspace.withLimits .top).select false totals).run none = (.ok compiled, none) ∧
        compiled.sql = r#"SELECT TOP 3 "region" AS "region", SUM("amount") AS "sum" "# ++
          r#"FROM "sales" GROUP BY "region" ORDER BY COUNT(*)"# := ⟨_, rfl, by decide +kernel⟩
    have known : (sqlite.workspace.selection totals.relation.bindings totals.projection []).map
        (fun s => (s.fields, s.groups)) = .ok
          ([r#""region" AS "region""#, r#"SUM("amount") AS "sum""#], [r#""region""#]) := by
      decide +kernel
    obtain ⟨-, ensured⟩ := aggregates_are_grouped sqlite .top rfl (wellFormed totals rfl) false
      none RestrictionRequest.recalls_none
    obtain ⟨relation, selection, restriction, order, selects, aparts, -, grouped, -⟩ :=
      ensured compiled (congrArg Prod.fst ran)
    obtain ⟨selection', selected, clauses⟩ := Except.map_eq_ok_iff.1 known
    obtain rfl := Except.ok.inj (selects.selected.symm.trans selected)
    obtain ⟨fields, groups⟩ := Prod.mk.inj clauses
    have some_ : ∃ field ∈ selection.fields, ¬ sqlite.NoAggregate field :=
      ⟨r#"SUM("amount") AS "sum""#, by simp [fields], by decide +kernel⟩
    refine ⟨compiled, ran, text, aparts not_nestsAggregates_region_total ?_, selection, selected,
      groups, grouped not_mixesAggregate_region_total some_⟩
    intro e' given
    obtain rfl := Order.computed.inj (Option.some.inj given)
    rw [nestsAggregates_iff]
    simp [ingredients, parts]
  · obtain ⟨compiled, ran, text, inexact⟩ : ∃ compiled,
        (sqlite.workspace.select false countedNorthern).run none = (.ok compiled, none) ∧
        compiled.sql = r#"SELECT "region" AS "region" FROM "sales" "# ++
          r#"WHERE "region" LIKE 'N%' ESCAPE '\' ORDER BY COUNT(*)"# ∧ compiled.exact = false :=
      ⟨_, rfl, by decide +kernel, by decide +kernel⟩
    have aggregate : ¬ sqlite.NoAggregate compiled.sql := by
      rw [text]
      decide +kernel
    obtain ⟨-, ensured⟩ := aggregates_are_grouped sqlite .trailing rfl
      (wellFormed countedNorthern rfl) false none RestrictionRequest.recalls_none
    obtain ⟨_, _, _, _, -, -, -, -, -, loose⟩ := ensured compiled (congrArg Prod.fst ran)
    refine ⟨compiled, ran, text, inexact, aggregate, ?_⟩
    by_contra none_
    exact aggregate ((loose inexact).2 none_)
  · obtain ⟨compiled, ran, text⟩ : ∃ compiled,
        (sqlite.workspace.select false muddled).run none = (.ok compiled, none) ∧
        compiled.sql = r#"SELECT SUM(SUM("amount")) AS "sum", (SUM("amount") + "amount") "# ++
          r#"AS "expr2" FROM "sales""# := ⟨_, rfl, by decide +kernel⟩
    refine ⟨compiled, ran, text, ?_, by decide +kernel⟩
    rw [text]
    decide +kernel

end Totals

end BuiltinDialect

end RowQuery
