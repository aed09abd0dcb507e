import RowQuery.Dialect.Builtin
import RowQuery.Proofs.Catalog.Regular
import RowQuery.Proofs.Schema.ViewOrder
import RowQuery.Proofs.Table.Draft

/-!
# Names that are made from names

The name of a sequence or an index is the name of its table and that of its column with an
underscore in between.  Two of them are the same if they are made from the same names, or if an
underscore inside a name of one stands where those of the other are put together.  Between tables
nothing prevents the second, and within a table nothing prevents that two columns with sequences
are called the same when they are declared.
-/

namespace RowQuery

/-- The names of a table and a column overlap those of another table and column: the first
column begins with what the second table has more. -/
def Overlap (table column table' column' : String) : Prop :=
  ∃ more, (table' = table ++ "_" ++ more ∧ column = more ++ "_" ++ column') ∨
    (table = table' ++ "_" ++ more ∧ column' = more ++ "_" ++ column)

theorem glued_lists {as bs cs ds : List Char} (glued : as ++ '_' :: bs = cs ++ '_' :: ds) :
    (as = cs ∧ bs = ds) ∨ (∃ more, cs = as ++ '_' :: more ∧ bs = more ++ '_' :: ds) ∨
      ∃ more, as = cs ++ '_' :: more ∧ ds = more ++ '_' :: bs := by
  -- One of the underscores comes first.  If it is not the other one, it stands in a name there.
  rcases List.append_eq_append_iff.1 glued with ⟨more, rest, tail⟩ | ⟨more, rest, tail⟩
  · cases more with
    | nil =>
        rw [List.append_nil] at rest
        exact .inl ⟨rest.symm, by simpa using tail⟩
    | cons c more =>
        obtain ⟨rfl, behind⟩ := List.cons.inj tail
        exact .inr (.inl ⟨more, rest, behind⟩)
  · cases more with
    | nil =>
        rw [List.append_nil] at rest
        exact .inl ⟨rest, by simpa using tail.symm⟩
    | cons c more =>
        obtain ⟨rfl, behind⟩ := List.cons.inj tail
        exact .inr (.inr ⟨more, rest, behind⟩)

theorem glue_eq_iff {table column table' column' suffix : String} :
    table ++ "_" ++ column ++ suffix = table' ++ "_" ++ column' ++ suffix ↔
      (table = table' ∧ column = column') ∨ Overlap table column table' column' := by
  constructor
  · intro same
    have lists : table.toList ++ '_' :: column.toList = table'.toList ++ '_' :: column'.toList := by
      refine (List.append_left_inj suffix.toList).1 ?_
      simpa [String.toList_append] using congrArg String.toList same
    rcases glued_lists lists with ⟨tables, columns⟩ | ⟨more, tables, columns⟩ |
      ⟨more, tables, columns⟩
    · exact .inl ⟨String.toList_inj.1 tables, String.toList_inj.1 columns⟩
    · refine .inr ⟨String.ofList more, .inl ⟨?_, ?_⟩⟩
      · apply String.toList_inj.1
        simp [String.toList_append, tables]
      · apply String.toList_inj.1
        simp [String.toList_append, columns]
    · refine .inr ⟨String.ofList more, .inr ⟨?_, ?_⟩⟩
      · apply String.toList_inj.1
        simp [String.toList_append, tables]
      · apply String.toList_inj.1
        simp [String.toList_append, columns]
  · rintro (⟨rfl, rfl⟩ | ⟨more, ⟨rfl, rfl⟩ | ⟨rfl, rfl⟩⟩)
    · rfl
    · simp [String.append_assoc]
    · simp [String.append_assoc]

/-- Names that are made from those of two tables and of columns of theirs. -/
theorem disjoint_glued_iff {table table' : String} (suffix : String) {names names' : List String}
    {P P' : String → Prop} (apart : table ≠ table')
    (named : ∀ name, name ∈ names ↔ ∃ column, P column ∧ name = table ++ "_" ++ column ++ suffix)
    (named' : ∀ name, name ∈ names' ↔
      ∃ column, P' column ∧ name = table' ++ "_" ++ column ++ suffix) :
    List.Disjoint names names' ↔
      ∀ column, P column → ∀ column', P' column' → ¬Overlap table column table' column' := by
  constructor
  · intro disjoint column known column' known' overlap
    have same : table ++ "_" ++ column ++ suffix = table' ++ "_" ++ column' ++ suffix :=
      glue_eq_iff.2 (.inr overlap)
    exact disjoint ((named _).2 ⟨column, known, rfl⟩) ((named' _).2 ⟨column', known', same⟩)
  · intro free name member member'
    obtain ⟨column, known, rfl⟩ := (named name).1 member
    obtain ⟨column', known', same⟩ := (named' _).1 member'
    rcases glue_eq_iff.1 same with ⟨tables, -⟩ | overlap
    · exact apart tables
    · exact free column known column' known' overlap

example : Overlap "order" "line_id" "order_line" "id" :=
  ⟨"line", .inl ⟨rfl, rfl⟩⟩

/-- Sequences, in a dialect that has them, are named for their table and column. -/
def Dialect.NamesSequences (d : Dialect) : Prop :=
  ∀ table column, d.sequenceName table column = none ∨
    d.sequenceName table column = some (table ++ "_" ++ column ++ "_seq")

theorem BuiltinDialect.namesSequences (d : BuiltinDialect) : d.dialect.NamesSequences := by
  intro table column
  cases d with
  | postgres => exact .inr rfl
  | ansi | sqlite | mysql => exact .inl rfl

/-- The name of the sequence that a statement creates. -/
def Ddl.sequence? : Ddl → Option String
  | .createSequence name => some name
  | _ => none

/-- The name of the index that a statement creates. -/
def Ddl.index? : Ddl → Option String
  | .createIndex index => some index.name
  | _ => none

namespace Table

variable {d : Dialect} {t t' : Table} {declared declared' : String → String}

theorem sequence?_creation (clauses : List ColumnClause) :
    (creation d t clauses).filterMap Ddl.sequence? = t.sequences := by
  simp [creation, List.filterMap_append, List.filterMap_map, Function.comp_def, Ddl.sequence?]

theorem index?_creation (clauses : List ColumnClause) :
    (creation d t clauses).filterMap Ddl.index? = t.indices.map Index.name := by
  have indices : (Ddl.index? ∘ fun i : Index => Ddl.createIndex i.entry) = some ∘ Index.name := rfl
  rw [creation, List.filterMap_append, List.filterMap_cons, List.filterMap_map, List.filterMap_map,
    indices, List.filterMap_eq_map]
  simp [Function.comp_def, Ddl.index?]

/-- An index of the table is named for what a column was called. -/
def IndexedAs (t : Table) (column : String) : Prop :=
  t.name ++ "_" ++ column ++ "_idx" ∈ t.indices.map Index.name

theorem Glued.sequences_eq (naming : d.NamesSequences) (glued : t.Glued d declared) :
    t.sequences = (t.generatedAs declared).map fun column => t.name ++ "_" ++ column ++ "_seq" := by
  have named : ∀ c ∈ t.columns, ∀ sequence, c.sequence = some sequence →
      sequence = t.name ++ "_" ++ declared c.key ++ "_seq" := by
    intro c member sequence same
    have made := glued.sequences c member sequence same
    rcases naming t.name (declared c.key) with none | some
    · rw [none] at made
      cases made
    · rw [some] at made
      exact (Option.some.inj made).symm
  rw [Table.sequences, generatedAs, List.map_map]
  clear glued
  generalize t.columns = columns at named
  induction columns with
  | nil => rfl
  | cons c columns ih =>
      rw [List.forall_mem_cons] at named
      rw [List.filterMap_cons, ih named.2]
      cases some : c.sequence with
      | none => simp [some]
      | some sequence => simp [some, named.1 sequence some]

/-- The sequences of a table are told apart by what their columns were called. -/
theorem Glued.sequences_nodup_iff (naming : d.NamesSequences) (glued : t.Glued d declared) :
    t.sequences.Nodup ↔ (t.generatedAs declared).Nodup := by
  rw [glued.sequences_eq naming]
  refine List.nodup_map_iff fun column column' same => ?_
  simpa using same

theorem Glued.sequences_disjoint_iff (naming : d.NamesSequences) (glued : t.Glued d declared)
    (glued' : t'.Glued d declared') (apart : t.name ≠ t'.name) :
    List.Disjoint t.sequences t'.sequences ↔
      ∀ column ∈ t.generatedAs declared, ∀ column' ∈ t'.generatedAs declared',
        ¬Overlap t.name column t'.name column' := by
  rw [glued.sequences_eq naming, glued'.sequences_eq naming]
  refine disjoint_glued_iff "_seq" apart ?_ ?_
  · exact fun name => by simp only [List.mem_map, eq_comm]
  · exact fun name => by simp only [List.mem_map, eq_comm]

/-- The indices of a table are named for columns. -/
theorem Glued.mem_indexNames (glued : t.Glued d declared) (name : String) :
    name ∈ t.indices.map Index.name ↔
      ∃ column, t.IndexedAs column ∧ name = t.name ++ "_" ++ column ++ "_idx" := by
  constructor
  · intro known
    obtain ⟨i, member, rfl⟩ := List.mem_map.1 known
    obtain ⟨column, named⟩ := glued.indexNames i member
    exact ⟨column, by rwa [IndexedAs, ← named], named⟩
  · rintro ⟨column, indexed, rfl⟩
    exact indexed

theorem Glued.indices_disjoint_iff (glued : t.Glued d declared) (glued' : t'.Glued d declared')
    (apart : t.name ≠ t'.name) :
    List.Disjoint (t.indices.map Index.name) (t'.indices.map Index.name) ↔
      ∀ column, t.IndexedAs column → ∀ column', t'.IndexedAs column' →
        ¬Overlap t.name column t'.name column' :=
  disjoint_glued_iff "_idx" apart glued.mem_indexNames glued'.mem_indexNames

/-- A table that was declared and changed but not created, with what the column of each key was
called when it was declared. -/
structure Draft (d : Dialect) where
  table : Table
  declared : String → String
  drafted : table.Drafted d declared

namespace Draft

def new (d : Dialect) (name : String) : Draft d where
  table := .new d name
  declared := id
  drafted := .new name id

/-- The table is changed. -/
def operate (draft : Draft d) (operation : Operation) (drafts : operation.Drafts) (db : Database)
    (same : db.workspace.dialect = d) : Draft d where
  table := (operation.alteration.run (draft.table, db)).2.1
  declared :=
    if (operation.alteration.run (draft.table, db)).1.isOk then operation.declares draft.declared
    else draft.declared
  drafted := .operate draft.drafted operation drafts same

/-- What the columns with a sequence were called when they were declared. -/
def generated (draft : Draft d) : List String :=
  draft.table.generatedAs draft.declared

/-- No sequence of one is named by the overlap with one of the other. -/
def SequencesApart (draft draft' : Draft d) : Prop :=
  ∀ column ∈ draft.generated, ∀ column' ∈ draft'.generated,
    ¬Overlap draft.table.name column draft'.table.name column'

/-- No index of one is named by the overlap with one of the other. -/
def IndicesApart (draft draft' : Draft d) : Prop :=
  ∀ column, draft.table.IndexedAs column → ∀ column', draft'.table.IndexedAs column' →
    ¬Overlap draft.table.name column draft'.table.name column'

variable {drafts : List (Draft d)}

/-- What is known of two tables of different names holds of a list of them. -/
theorem pairwise_iff (names : (drafts.map fun draft => draft.table.name).Nodup)
    {P Q : Draft d → Draft d → Prop}
    (same : ∀ draft draft' : Draft d, draft.table.name ≠ draft'.table.name →
      (P draft draft' ↔ Q draft draft')) :
    drafts.Pairwise P ↔ drafts.Pairwise Q := by
  have apart : drafts.Pairwise fun draft draft' => draft.table.name ≠ draft'.table.name :=
    List.pairwise_map.1 names
  constructor
  · exact fun holds => (apart.and holds).imp fun ⟨apart, holds⟩ => (same _ _ apart).1 holds
  · exact fun holds => (apart.and holds).imp fun ⟨apart, holds⟩ => (same _ _ apart).2 holds

theorem sequences_nodup_iff (naming : d.NamesSequences)
    (names : (drafts.map fun draft => draft.table.name).Nodup) :
    (drafts.flatMap fun draft => draft.table.sequences).Nodup ↔
      (∀ draft ∈ drafts, draft.generated.Nodup) ∧ drafts.Pairwise SequencesApart := by
  rw [List.nodup_flatMap]
  refine and_congr (forall₂_congr fun draft _ => ?_)
    (pairwise_iff names fun draft draft' apart => ?_)
  · exact draft.drafted.glued.sequences_nodup_iff naming
  · exact draft.drafted.glued.sequences_disjoint_iff naming draft'.drafted.glued apart

theorem indices_nodup_iff (names : (drafts.map fun draft => draft.table.name).Nodup) :
    (drafts.flatMap fun draft => draft.table.indices.map Index.name).Nodup ↔
      (d.indexesKeys = true → ∀ draft ∈ drafts, (draft.table.indices.map Index.name).Nodup) ∧
        drafts.Pairwise IndicesApart := by
  rw [List.nodup_flatMap]
  refine and_congr ⟨fun own _ => own, fun own draft member => ?_⟩
    (pairwise_iff names fun draft draft' apart => ?_)
  · cases keyed : d.indexesKeys with
    | true => exact own keyed draft member
    | false => exact draft.drafted.glued.distinct keyed
  · exact draft.drafted.glued.indices_disjoint_iff draft'.drafted.glued apart

end Draft

end Table

namespace Schema

open Session Database

variable {d : Dialect} {schema : Schema}

/-- Add tables one after the other. -/
def fill (tables : List Table) : Session Unit :=
  tables.forM addTable

/-- Tables under names that are not used are added. -/
theorem fill_run (schema : Schema) {tables : List Table} (ordered : schema.tables.Ordered)
    (names : (tables.map Table.name).Nodup)
    (unused : ∀ t ∈ tables, schema.tables.get? t.name = none ∧ schema.views.get? t.name = none) :
    ∃ filled : Keyed Table,
      (fill tables).run schema = (.ok (), { schema with tables := filled }) ∧ filled.Ordered ∧
        filled.Perm (tables.map (fun t => (t.name, t)) ++ schema.tables) := by
  induction tables generalizing schema with
  | nil => exact ⟨schema.tables, rfl, ordered, List.Perm.refl _⟩
  | cons t tables ih =>
      rw [List.map_cons, List.nodup_cons] at names
      rw [List.forall_mem_cons] at unused
      obtain ⟨⟨free, freeView⟩, unused⟩ := unused
      have added : (addTable t).run schema =
          (.ok (), { schema with tables := schema.tables.put t.name t }) := by
        rw [addTable_run, Keyed.has, Keyed.has, free, freeView]
        rfl
      have still : ∀ t' ∈ tables, (schema.tables.put t.name t).get? t'.name = none ∧
          schema.views.get? t'.name = none := by
        intro t' member
        have other : t'.name ≠ t.name := fun same =>
          names.1 (same ▸ List.mem_map_of_mem member)
        rw [Keyed.get?_put_ne _ _ other]
        exact unused t' member
      obtain ⟨filled, ran, ordered', same⟩ :=
        ih { schema with tables := schema.tables.put t.name t } (ordered.put t.name t) names.2 still
      refine ⟨filled, ?_, ordered', same.trans ?_⟩
      · change (addTable t >>= fun _ => fill tables).run schema = _
        rw [ExceptT.run_bind_of_ok added]
        exact ran
      · rw [List.map_cons, List.cons_append]
        exact ((Keyed.put_perm free).append_left _).trans List.perm_middle

/-- The statements of a draft can be written. -/
theorem creation_of_drafted {t : Table} {declared : String → String}
    (drafted : t.Drafted d declared) (name : String) :
    ∃ clauses, (tableObject (name, t)).creation d =
      .ok (some ((Table.creation d t clauses).map (Ddl.text d))) := by
  have uncreated := drafted.glued.uncreated
  obtain ⟨statements, written⟩ := drafted.reachedIn.createTable_ok uncreated
  obtain ⟨clauses, -, rfl⟩ := Table.createTable_eq_ok drafted.glued.toWellFormed written
  refine ⟨clauses, ?_⟩
  rw [tableObject, Object.creation, Table.isCreated_of_uncreated uncreated,
    Table.ensureLive_of_uncreated uncreated, written]
  rfl

/-- The statements that create tables, with their structure. -/
theorem exists_ddl {entries : Keyed Table}
    (drafted : ∀ entry ∈ entries, ∃ declared, entry.2.Drafted d declared) :
    ∃ ddl : List Ddl,
      (entries.map tableObject).flatMap (fun object => (object.creation d).texts) =
        ddl.map (Ddl.text d) ∧
      ddl.filterMap Ddl.sequence? = entries.flatMap (fun entry => entry.2.sequences) ∧
      ddl.filterMap Ddl.index? = entries.flatMap (fun entry => entry.2.indices.map Index.name) := by
  induction entries with
  | nil => exact ⟨[], rfl, rfl, rfl⟩
  | cons entry entries ih =>
      rw [List.forall_mem_cons] at drafted
      obtain ⟨⟨declared, head⟩, drafted⟩ := drafted
      obtain ⟨ddl, texts, sequences, indices⟩ := ih drafted
      obtain ⟨clauses, planned⟩ := creation_of_drafted head entry.1
      refine ⟨Table.creation d entry.2 clauses ++ ddl, ?_, ?_, ?_⟩
      · rw [List.map_cons, List.flatMap_cons, texts, planned, List.map_append]
        rfl
      · rw [List.filterMap_append, Table.sequence?_creation, sequences, List.flatMap_cons]
      · rw [List.filterMap_append, Table.index?_creation, indices, List.flatMap_cons]

/-- The sequences that are created for tables of different names have different names if no two
columns of a table were called the same when their sequences were declared, and no two tables
overlap; so do the indices if no two tables overlap, where keys are not indexed. -/
theorem generated_names_distinct_iff (d : Dialect) (naming : d.NamesSequences)
    (drafts : List (Table.Draft d)) (names : (drafts.map fun draft => draft.table.name).Nodup)
    (db : Database) (same : db.workspace.dialect = d) :
    ∃ filled : Schema,
      (fill (drafts.map Table.Draft.table)).run { database := db } = (.ok (), filled) ∧
      ∃ ddl ran : List Ddl, ran <+: ddl ∧
        db.Runs (createAll.run filled).2.database (ran.map (Ddl.text d)) ∧
        ((createAll.run filled).1 = .ok () → ran = ddl) ∧
        (db.Willing → (createAll.run filled).1 = .ok ()) ∧
        ((ddl.filterMap Ddl.sequence?).Nodup ↔
          (∀ draft ∈ drafts, draft.generated.Nodup) ∧
            drafts.Pairwise Table.Draft.SequencesApart) ∧
        ((ddl.filterMap Ddl.index?).Nodup ↔
          (d.indexesKeys = true → ∀ draft ∈ drafts, (draft.table.indices.map Index.name).Nodup) ∧
            drafts.Pairwise Table.Draft.IndicesApart) := by
  have distinct : ((drafts.map Table.Draft.table).map Table.name).Nodup := by
    rwa [List.map_map]
  obtain ⟨entries, went, ordered, perm⟩ :=
    fill_run { database := db } List.Pairwise.nil distinct fun _ _ => ⟨rfl, rfl⟩
  -- The statements stand in the order of the names of the tables, not in that of the drafts.
  rw [List.append_nil, List.map_map] at perm
  have drafted : ∀ entry ∈ entries, ∃ declared, entry.2.Drafted d declared := by
    intro entry member
    obtain ⟨draft, -, rfl⟩ := List.mem_map.1 (perm.subset member)
    exact ⟨draft.declared, draft.drafted⟩
  have rooted : ∀ entry ∈ entries, entry.2.Rooted := by
    intro entry member
    obtain ⟨declared, drafted⟩ := drafted entry member
    exact drafted.glued.toRooted
  refine ⟨{ database := db, tables := entries }, went, ?_⟩
  obtain ⟨-, -, outcome, database, -⟩ :=
    @createAll_run { database := db, tables := entries } d ordered List.Pairwise.nil rooted same
  have objects : Schema.objects { database := db, tables := entries } = entries.map tableObject :=
    List.append_nil _
  rw [objects] at outcome database
  obtain ⟨ddl, texts, sequences, indices⟩ := exists_ddl drafted
  obtain ⟨log, part, whole, runs⟩ :=
    carryEach_runs (Object.creation d) (entries.map tableObject) db
  have told := part.map Prod.snd
  rw [map_logOf, texts] at told
  obtain ⟨ran, first, log_eq⟩ := List.prefix_map_iff.1 told
  rw [log_eq] at runs
  refine ⟨ddl, ran, first, database ▸ runs, fun succeeded => ?_, fun willing => ?_, ?_, ?_⟩
  · rw [whole (outcome.symm.trans succeeded), map_logOf, texts] at log_eq
    refine first.eq_of_length ?_
    simpa using (congrArg List.length log_eq).symm
  · rw [outcome]
    refine (willing.carryEach fun object member => ?_).1
    obtain ⟨entry, known, rfl⟩ := List.mem_map.1 member
    obtain ⟨declared, drafted⟩ := drafted entry known
    obtain ⟨clauses, planned⟩ := creation_of_drafted drafted entry.1
    exact ⟨_, planned⟩
  · rw [sequences, ← Table.Draft.sequences_nodup_iff naming names]
    refine (perm.flatMap_right _).nodup_iff.trans ?_
    rw [List.flatMap_map]
    rfl
  · rw [indices, ← Table.Draft.indices_nodup_iff names]
    refine (perm.flatMap_right _).nodup_iff.trans ?_
    rw [List.flatMap_map]
    rfl

section Guests

/-- A database that answers every statement. -/
def reception : Database where
  workspace := { dialect := .postgres, functions := {} }

/-- A generated column called "id". -/
def identity (key : String) : ColumnSpec where
  key
  name := some "id"
  kind := .int
  isGenerated := true

/-- A table whose first column was called "id" until it was renamed, as its second one is now. -/
def guests : Table.Draft .postgres :=
  let declared := (Table.Draft.new .postgres "guest").operate
    (.define (identity "number")) trivial reception rfl
  let renamed := declared.operate (.renameColumn "number" "number") trivial reception rfl
  renamed.operate (.define (identity "id")) trivial reception rfl

/-- Both columns have the sequence of the same name. -/
theorem guests_share_sequence :
    let filled := ((fill [guests.table]).run { database := reception }).2
    (createAll.run filled).1 = .ok () ∧
      (createAll.run filled).2.database.record =
        ["CREATE SEQUENCE \"guest_id_seq\"", "CREATE SEQUENCE \"guest_id_seq\"",
          "CREATE TABLE \"guest\" (\"number\" INTEGER DEFAULT nextval('\"guest_id_seq\"'), " ++
            "\"id\" INTEGER DEFAULT nextval('\"guest_id_seq\"'))"] ∧
      ∃ ddl : List Ddl,
        (createAll.run filled).2.database.record = ddl.map (Ddl.text .postgres) ∧
          ¬(ddl.filterMap Ddl.sequence?).Nodup := by
  intro filled
  obtain ⟨filled', went, ddl, ran, -, ⟨commit, part, record⟩, whole, succeeds, sequences, -⟩ :=
    generated_names_distinct_iff .postgres (BuiltinDialect.namesSequences .postgres) [guests]
      (by simp) reception rfl
  obtain rfl : filled = filled' := congrArg Prod.snd went
  have succeeded := succeeds ⟨rfl, nofun⟩
  obtain rfl : ran = ddl := whole succeeded
  obtain rfl : commit = [] := List.prefix_nil.1 part
  refine ⟨succeeded, by decide +kernel, ran, record, fun distinct => ?_⟩
  have own := (sequences.1 distinct).1 guests List.mem_cons_self
  have called : guests.generated = ["id", "id"] := by decide +kernel
  rw [called] at own
  simp at own

end Guests

end Schema

end RowQuery
