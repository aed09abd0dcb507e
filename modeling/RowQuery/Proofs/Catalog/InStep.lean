import RowQuery.Dialect.Postgres
import RowQuery.Proofs.Catalog.Regular

/-!
# What the statements of a table do

Each statement that an operation issues changes the catalog as the operation changes the table.
A database addresses columns by their names where a table in memory does it by their keys; this
comes to the same because no two columns share either.
-/

namespace RowQuery.Table

open Catalog

variable {d : Dialect} {t : Table}

theorem declaresKey_columns (d : Dialect) (t : Table) :
    t.columns.filter (Column.declaresKey d) =
      if d.declaresKeyInline then t.keyColumns.filter Column.isGenerated else [] := by
  unfold Column.declaresKey keyColumns
  cases d.declaresKeyInline with
  | true => simp [List.filter_filter]
  | false => simp

/-- The primary key of the statement is that of the table, unless it is declared twice. -/
theorem primaryKey_eq {clauses : List ColumnClause} (listed : Clauses d t clauses) :
    primaryKey clauses (t.separateKeys d) = .ok (t.keyColumns.map Column.name) ∨
      ∃ name, primaryKey clauses (t.separateKeys d) = .error (.clash name) := by
  have inlined : (clauses.filter ColumnClause.isKey).map ColumnClause.name =
      (t.columns.filter (Column.declaresKey d)).map Column.name := by
    have marked : clauses.map (fun clause => (clause.isKey, clause.name)) =
        t.columns.map fun c => (c.declaresKey d, c.name) := listed.map_eq fun _ _ _ => rfl
    have keys := congrArg (fun pairs => (pairs.filter Prod.fst).map Prod.snd) marked
    simpa [List.filter_map, Function.comp_def] using keys
  unfold primaryKey
  rw [inlined, declaresKey_columns]
  unfold separateKeys Dialect.keyIsInline
  cases d.declaresKeyInline with
  | false =>
      cases t.keyColumns with
      | nil => exact .inl rfl
      | cons key keys => cases keys <;> exact .inl rfl
  | true =>
      cases t.keyColumns with
      | nil => exact .inl rfl
      | cons key keys =>
          cases keys with
          | nil => cases generated : key.isGenerated <;> simp [generated]
          | cons other keys =>
              simp only [Bool.false_eq_true, if_false, if_true]
              cases (List.filter Column.isGenerated (key :: other :: keys)).map Column.name with
              | nil => exact .inl rfl
              | cons inline more => exact .inr ⟨_, by cases more <;> rfl⟩

theorem hasColumn_entry_eq (t : Table) (name : String) :
    t.entry.hasColumn name = decide (name ∈ t.columns.map Column.name) := by
  have same : (name ∈ t.columns.map Column.name) ↔ t.entry.hasColumn name = true := by
    simp [CatalogTable.hasColumn, entry]
  rw [Bool.eq_iff_iff, decide_eq_true_iff, same]

theorem hasColumn_entry {name : String} (known : name ∈ t.columns.map Column.name) :
    t.entry.hasColumn name = true := by
  rw [hasColumn_entry_eq, decide_eq_true known]

/-- Creating the table from nothing. -/
theorem leadsTo_creation (regular : t.Regular d) {clauses : List ColumnClause}
    (listed : Clauses d t clauses) :
    LeadsTo {} (creation d t clauses) ⟨[t.entry], t.sequences⟩ := by
  refine (leadsTo_createSequences t.sequences {}).append ?_
  rw [List.nil_append]
  have names : clauses.map ColumnClause.name = t.columns.map Column.name :=
    listed.map_eq fun _ _ _ => rfl
  have columns : clauses.map (fun column => (column.name, column.type)) =
      t.columns.map fun c => (c.name, c.type.declared) := by
    refine listed.map_eq fun c member rest => ?_
    have integer := regular.integerKeys c member
    cases key : c.declaresKey d with
    | true => simp [Column.clause, key, integer key]
    | false => simp [Column.clause, key]
  have created (sequences : List String) :
      apply ⟨[], sequences⟩ (.createTable t.name clauses (t.separateKeys d)) = (do
        let keys ← primaryKey clauses (t.separateKeys d)
        .ok ⟨[{ t.entry with keys, indices := [] }], sequences⟩) := by
    have distinct : decide (clauses.map ColumnClause.name).Nodup = true := by
      rw [names]
      exact decide_eq_true regular.names
    rw [apply, distinct, columns]
    rfl
  rcases primaryKey_eq listed with keys | ⟨name, twice⟩
  · rw [keys] at created
    refine .cons (created _) ?_
    have entries : t.indices.map (fun i => Ddl.createIndex i.entry) =
        (t.indices.map Index.entry).map .createIndex := by
      rw [List.map_map]
      rfl
    rw [entries]
    refine leadsTo_createIndices _ { t.entry with indices := [] } _ ?_ ?_
    · intro i known
      obtain ⟨index, member, rfl⟩ := List.mem_map.1 known
      exact regular.ownIndices index member
    · intro i known
      obtain ⟨index, member, rfl⟩ := List.mem_map.1 known
      exact hasColumn_entry (regular.indices index member)
  · rw [twice] at created
    exact .of_clash (created _)

theorem leadsTo_dropTable (t : Table) :
    LeadsTo ⟨[t.entry], t.sequences⟩ (.dropTable t.name :: t.sequences.map .dropSequence) {} := by
  have dropped : apply ⟨[t.entry], t.sequences⟩ (.dropTable t.name) = .ok ⟨[], t.sequences⟩ := by
    simp [apply, entry]
  exact .cons dropped (leadsTo_dropSequences _ _)

theorem leadsTo_renameTable (d : Dialect) (t : Table) (name : String) :
    LeadsTo ⟨[t.entry], t.sequences⟩ [.renameTable t.name name]
      ⟨[(t.renamed d name).entry], (t.renamed d name).sequences⟩ := by
  have indices : (t.renamed d name).entry.indices =
      t.entry.indices.map fun i => { i with table := name } := by
    simp [entry, renamed, Index.entry, Function.comp_def]
  by_cases same : t.name = name
  · have refused : apply ⟨[t.entry], t.sequences⟩ (.renameTable t.name name) =
        .error (.clash name) := by simp [apply, entry, same]
    exact .of_clash refused
  · have does : apply ⟨[t.entry], t.sequences⟩ (.renameTable t.name name) =
        alterTable ⟨[t.entry], t.sequences⟩ t.entry.name fun t =>
          .ok { t with name, indices := t.indices.map fun i => { i with table := name } } := by
      rw [apply, if_neg (by simpa [entry] using same)]
      rfl
    refine leadsTo_alterTable does ?_
    rw [← indices]
    rfl

theorem sequences_withColumn (t : Table) (d : Dialect) (column : Column) :
    (t.withColumn d column).sequences = t.sequences ++ column.sequence.toList := by
  rw [sequences, withColumn, List.filterMap_append]
  cases sequence : column.sequence <;> simp [sequences, sequence]

/-- A column that is not a key is added. -/
theorem leadsTo_addColumn {column : Column} (ordinary : column.isKey = false)
    (fresh : column.name ∉ t.columns.map Column.name) (rest : String) :
    LeadsTo ⟨[t.entry], t.sequences⟩
      (column.sequence.toList.map .createSequence ++
        [.addColumn t.name (column.clause d rest)])
      ⟨[(t.withColumn d column).entry], (t.withColumn d column).sequences⟩ := by
  have undeclared : column.declaresKey d = false := by simp [Column.declaresKey, ordinary]
  have unknown : t.entry.hasColumn column.name = false := by
    rw [hasColumn_entry_eq, decide_eq_false fresh]
  have extended : (t.withColumn d column).entry =
      { t.entry with columns := t.entry.columns ++ [(column.name, column.type.declared)] } := by
    simp [entry, withColumn, keyIndices, keyColumns, ordinary]
  rw [sequences_withColumn, extended]
  refine (leadsTo_createSequences _ _).append (leadsTo_alterTable rfl ?_)
  simp only [Column.clause, undeclared, unknown, Bool.false_eq_true, if_false]
  rfl

theorem others_of_nodup {before after : List Column} {column : Column}
    (names : ((before ++ column :: after).map Column.name).Nodup) :
    (∀ c ∈ before, c.name ≠ column.name) ∧ ∀ c ∈ after, c.name ≠ column.name := by
  rw [List.map_append, List.map_cons, List.nodup_append] at names
  obtain ⟨-, behind, apart⟩ := names
  constructor
  · intro c member
    exact apart _ (List.mem_map_of_mem member) _ List.mem_cons_self
  · intro c member same
    exact (List.nodup_cons.1 behind).1 (same ▸ List.mem_map_of_mem member)

/-- A column is forgotten by its name, as the database does it. -/
theorem forgetColumn_eq (regular : t.Regular d) {key : String} {column : Column}
    (found : t.column? key = some column) :
    (t.forgetColumn key).columns = t.columns.filter fun c => c.name ≠ column.name := by
  obtain ⟨before, after, columns, others, here⟩ := exists_split found
  have names := regular.names
  rw [columns] at names
  obtain ⟨first, second⟩ := others_of_nodup names
  rw [forgetColumn, found]
  dsimp only
  rw [columns, eraseP_split others here, List.filter_append, List.filter_cons_of_neg (by simp),
    List.filter_eq_self.2 (by simpa using first), List.filter_eq_self.2 (by simpa using second)]

/-- A column is renamed by its name, as the database does it. -/
theorem columnRenamed_eq (regular : t.Regular d) {key : String} {column : Column}
    (found : t.column? key = some column) (name : String) :
    (t.columnRenamed d column name).columns = t.columns.map fun c =>
      if c.name = column.name then { c with name, quotedName := d.quoteName name } else c := by
  obtain ⟨before, after, columns, others, here⟩ := exists_split found
  have names := regular.names
  rw [columns] at names
  obtain ⟨first, second⟩ := others_of_nodup names
  have same {cs : List Column} (different : ∀ c ∈ cs, c.name ≠ column.name) :
      cs.map (fun c => if c.name = column.name then
        { c with name, quotedName := d.quoteName name } else c) = cs := by
    refine (List.map_congr_left fun c member => ?_).trans (List.map_id cs)
    rw [if_neg (different c member), id]
  rw [columnRenamed, here]
  dsimp only
  rw [columns, updateColumn_split others here, List.map_append, List.map_cons, same first,
    same second, if_pos rfl]

theorem leadsTo_dropSequence (before after : List String) (sequence : Option String)
    (tables : List CatalogTable) :
    LeadsTo ⟨tables, before ++ (sequence.toList ++ after)⟩ (sequence.toList.map .dropSequence)
      ⟨tables, before ++ after⟩ := by
  cases sequence with
  | none => exact .nil _
  | some sequence =>
      intro distinct
      have apart := (List.nodup_append.1 distinct).2.2
      have absent : sequence ∉ before := fun member =>
        apart sequence member sequence (by simp) rfl
      refine LeadsTo.of_apply ?_ distinct
      rw [apply, if_pos (by simp)]
      simp [List.erase_append_right, absent]

theorem leadsTo_dropColumn (regular : t.Regular d) {key : String} {column : Column}
    (found : t.column? key = some column) :
    LeadsTo ⟨[t.entry], t.sequences⟩
      (.dropColumn t.name column.name :: column.sequence.toList.map .dropSequence)
      ⟨[(t.forgetColumn key).entry], (t.forgetColumn key).sequences⟩ := by
  obtain ⟨before, after, columns, others, here⟩ := exists_split found
  have known : t.entry.hasColumn column.name = true :=
    hasColumn_entry (List.mem_map_of_mem (mem_of_column? found))
  have entries : (t.forgetColumn key).entry =
      { t.entry with
        columns := t.entry.columns.filter fun c => c.1 ≠ column.name
        keys := t.entry.keys.filter fun key => key ≠ column.name
        indices := t.entry.indices.filter fun i => i.column ≠ column.name } := by
    have left := forgetColumn_eq regular found
    have indices : (t.forgetColumn key).indices =
        t.indices.filter fun i => i.column ≠ column.name := by rw [forgetColumn, found]
    have name : (t.forgetColumn key).name = t.name := by rw [forgetColumn, found]
    simp only [entry, keyColumns, left, indices, name, List.filter_map, List.filter_filter,
      Function.comp_def, Bool.and_comm]
    rfl
  have sequences : t.sequences = before.filterMap Column.sequence ++
      (column.sequence.toList ++ after.filterMap Column.sequence) := by
    rw [Table.sequences, columns, List.filterMap_append, List.filterMap_cons]
    cases column.sequence <;> rfl
  have left : (t.forgetColumn key).sequences =
      before.filterMap Column.sequence ++ after.filterMap Column.sequence := by
    rw [Table.sequences, forgetColumn, found]
    dsimp only
    rw [columns, eraseP_split others here, List.filterMap_append]
  rw [sequences, left, entries]
  refine (leadsTo_alterTable rfl ?_).append (leadsTo_dropSequence _ _ _ _)
  rw [if_pos known]

theorem leadsTo_renameColumn (regular : t.Regular d) {key name : String}
    {column : Column} (found : t.column? key = some column)
    (fresh : name ∉ t.columns.map Column.name) :
    LeadsTo ⟨[t.entry], t.sequences⟩ [.renameColumn t.name column.name name]
      ⟨[(t.columnRenamed d column name).entry], (t.columnRenamed d column name).sequences⟩ := by
  have known : t.entry.hasColumn column.name = true :=
    hasColumn_entry (List.mem_map_of_mem (mem_of_column? found))
  have unknown : t.entry.hasColumn name = false := by
    rw [hasColumn_entry_eq, decide_eq_false fresh]
  have columns := columnRenamed_eq regular found name
  have sequences : (t.columnRenamed d column name).sequences = t.sequences := by
    unfold Table.sequences
    rw [columns, List.filterMap_map]
    refine List.filterMap_congr fun c _ => ?_
    dsimp only [Function.comp]
    split <;> rfl
  have entries : (t.columnRenamed d column name).entry =
      { t.entry with
        columns := t.entry.columns.map fun c => if c.1 = column.name then (name, c.2) else c
        keys := t.entry.keys.map fun key => if key = column.name then name else key
        indices := t.entry.indices.map fun i =>
          if i.column = column.name then { i with column := name } else i } := by
    have keys : (t.columnRenamed d column name).keyColumns = t.keyColumns.map fun c =>
        if c.name = column.name then { c with name, quotedName := d.quoteName name } else c := by
      rw [keyColumns, columns, List.filter_map, keyColumns]
      refine congrArg (List.map _) (List.filter_congr fun c _ => ?_)
      dsimp only [Function.comp]
      split <;> rfl
    unfold entry
    rw [keys, columns]
    simp only [columnRenamed, List.map_map]
    congr 1
    · refine List.map_congr_left fun c _ => ?_
      dsimp only [Function.comp]
      split <;> rfl
    · refine List.map_congr_left fun c _ => ?_
      dsimp only [Function.comp]
      split <;> rfl
    · refine List.map_congr_left fun i _ => ?_
      by_cases here : i.column = column.name <;> simp [Index.entry, here]
  rw [sequences, entries]
  refine leadsTo_alterTable rfl ?_
  simp only [unknown, known, Bool.false_eq_true, if_false, if_true]

theorem leadsTo_addIndex {column : Column} (member : column ∈ t.columns) (unique : Bool) :
    let index := Index.onColumn d t.name column.name unique
    LeadsTo ⟨[t.entry], t.sequences⟩ [.createIndex index.entry]
      ⟨[(t.withIndex index).entry], (t.withIndex index).sequences⟩ := by
  intro index
  have indexed : (t.withIndex index).entry =
      { t.entry with indices := t.entry.indices ++ [index.entry] } := by
    simp [entry, withIndex, keyColumns]
  rw [indexed]
  refine leadsTo_createIndices [index.entry] t.entry t.sequences ?_ ?_
  · intro i known
    rw [List.mem_singleton.1 known]
    rfl
  · intro i known
    rw [List.mem_singleton.1 known]
    exact hasColumn_entry (List.mem_map_of_mem member)

theorem leadsTo_dropIndex {name : String} {index : Index}
    (found : t.indices.find? (fun i => i.name = name) = some index) :
    LeadsTo ⟨[t.entry], t.sequences⟩ [.dropIndex name t.name]
      ⟨[{ t.entry with indices := (t.indices.eraseP fun i => i.name = name).map Index.entry }],
        t.sequences⟩ := by
  refine leadsTo_alterTable rfl ?_
  have known : t.entry.indices.any (fun i => i.name = name) = true := by
    rw [entry, List.any_map, List.any_eq_true]
    exact ⟨index, List.mem_of_find?_eq_some found, List.find?_some found⟩
  rw [if_pos known, entry, List.eraseP_map]
  rfl

end RowQuery.Table

/-!
# Tables in step with their database

The statements that operations on a table issue are replayed on a catalog.  As long as the
table is in the database, the catalog has that table and its sequences and nothing else.
-/

namespace RowQuery

namespace Table

open Catalog

variable {d : Dialect} {t : Table}

theorem isCreated_forgetColumn (t : Table) (key : String) :
    (t.forgetColumn key).isCreated = t.isCreated := by
  unfold forgetColumn
  split <;> rfl

/-- An operation that issues nothing changes nothing that a database has. -/
theorem catalog_of_silent {operation : Operation} {plan : Plan}
    (planned : Planned d t operation plan) (faithful : operation.Faithful d t)
    (silent : plan.statements = none) : plan.after.catalog = t.catalog := by
  have absent {statements : List String} (silent : t.issued statements = none) :
      t.isCreated = false := by
    unfold issued at silent
    split at silent
    · cases silent
    · rename_i absent
      simpa using absent
  have empty {t' : Table} (absent : t.isCreated = false) (absent' : t'.isCreated = false) :
      t'.catalog = t.catalog := by
    simp [catalog, absent, absent']
  cases planned with
  | create => cases silent
  | drop => exact empty (absent silent) rfl
  | rename => exact empty (absent silent) (absent silent)
  | extend => exact empty (absent silent) (absent silent)
  | dropColumn =>
      exact empty (absent silent) ((isCreated_forgetColumn t _).trans (absent silent))
  | renameColumn => exact empty (absent silent) (absent silent)
  | addIndex => exact empty (absent silent) (absent silent)
  | dropIndex => exact empty (absent silent) (absent silent)
  | define fresh =>
      have absent : t.isCreated = false := by simp [isCreated, fresh]
      exact empty absent absent
  | defineIndex => exact empty faithful faithful
  | reference => rfl

theorem issued_eq_some {sqls statements : List String} (issues : t.issued sqls = some statements) :
    t.isCreated = true ∧ sqls = statements := by
  unfold issued at issues
  split at issues
  · rename_i created
    exact ⟨created, Option.some.inj issues⟩
  · cases issues

theorem catalog_of_created (created : t.isCreated = true) :
    t.catalog = ⟨[t.entry], t.sequences⟩ := by
  rw [catalog, if_pos created]

theorem leadsTo_of_created {t' : Table} {ddl : List Ddl} (created : t.isCreated = true)
    (created' : t'.isCreated = true)
    (leads : LeadsTo ⟨[t.entry], t.sequences⟩ ddl ⟨[t'.entry], t'.sequences⟩) :
    t.catalog.LeadsTo ddl t'.catalog := by
  rw [catalog_of_created created, catalog_of_created created']
  exact leads

/-- The statements that an operation issues do in the database what it does in memory. -/
theorem Regular.leadsTo (regular : t.Regular d)
    {operation : Operation} {plan : Plan} {statements : List String}
    (planned : Planned d t operation plan) (faithful : operation.Faithful d t)
    (issues : plan.statements = some statements) :
    ∃ ddl, statements = ddl.map (Ddl.text d) ∧ t.catalog.LeadsTo ddl plan.after.catalog := by
  cases planned with
  | create fresh written =>
      cases issues
      obtain ⟨clauses, listed, texts⟩ := createTable_eq_ok regular.wellFormed written
      refine ⟨_, texts, ?_⟩
      have empty : t.catalog = {} := by simp [catalog, isCreated, fresh]
      rw [empty]
      exact leadsTo_creation regular listed
  | drop =>
      obtain ⟨created, rfl⟩ := issued_eq_some issues
      refine ⟨.dropTable t.name :: t.sequences.map .dropSequence, ?_, ?_⟩
      · rw [List.map_cons, List.map_map, Dialect.dropTable, regular.quotedTable]
        rfl
      · rw [catalog_of_created created]
        exact leadsTo_dropTable t
  | @rename name =>
      obtain ⟨created, rfl⟩ := issued_eq_some issues
      exact ⟨[.renameTable t.name name], rfl,
        leadsTo_of_created created created (leadsTo_renameTable d t name)⟩
  | extend live built freshKey freshName written =>
      obtain ⟨created, rfl⟩ := issued_eq_some issues
      obtain ⟨definition, defined, ended⟩ := Except.bind_eq_ok_iff.1 (written created)
      obtain ⟨rest, text⟩ := columnDefinition_eq_ok (build_eq_ok built).2.2 defined
      obtain ⟨_, -, column_eq⟩ := build_eq built
      have ordinary := (congrArg Column.isKey column_eq).trans (faithful.1 created)
      refine ⟨_, ?_, leadsTo_of_created created created
        (leadsTo_addColumn ordinary freshName rest)⟩
      rw [← Except.ok.inj ended, List.map_append, List.map_map, text,
        Table.withColumn, regular.quotedTable]
      rfl
  | @dropColumn key column live found =>
      obtain ⟨created, rfl⟩ := issued_eq_some issues
      refine ⟨_, ?_, leadsTo_of_created created ((isCreated_forgetColumn t key).trans created)
        (leadsTo_dropColumn regular found)⟩
      rw [List.map_cons, List.map_map, Dialect.dropColumn, regular.quotedTable,
        regular.quoted column (mem_of_column? found)]
      rfl
  | @renameColumn key name column live found fresh =>
      obtain ⟨created, rfl⟩ := issued_eq_some issues
      refine ⟨_, ?_, leadsTo_of_created created created
        (leadsTo_renameColumn regular found fresh)⟩
      rw [List.map_singleton, text_renameColumn regular (mem_of_column? found)]
  | @addIndex key unique column live found =>
      obtain ⟨created, rfl⟩ := issued_eq_some issues
      refine ⟨_, ?_, leadsTo_of_created created created
        (leadsTo_addIndex (mem_of_column? found) unique)⟩
      rw [List.map_singleton, text_createIndex rfl]
  | @dropIndex name index live found =>
      obtain ⟨created, rfl⟩ := issued_eq_some issues
      have member := List.mem_of_find?_eq_some found
      have named : index.name = name := by simpa using List.find?_some found
      refine ⟨[.dropIndex name t.name], ?_, leadsTo_of_created created created
        (leadsTo_dropIndex found)⟩
      rw [Dialect.dropIndexStatement, regular.quotedIndices index member,
        regular.ownIndices index member, named]
      rfl
  | define => cases issues
  | defineIndex => cases issues
  | reference => cases issues

end Table

/-- The statements that ran on a database in between, behind the commit of the transaction that
was open. -/
def Database.Told (d : Dialect) (before after : Database) (ddl : List Ddl) : Prop :=
  (ddl = [] ∧ after.record = before.record ∧ after.transaction = before.transaction) ∨
    (after.record = before.record ++ before.openCommit.map Executed.sql ++ ddl.map (Ddl.text d) ∧
      after.transaction = none)

theorem Database.Told.trans {d : Dialect} {before between after : Database}
    {ddl more : List Ddl} (first : Told d before between ddl) (second : Told d between after more) :
    Told d before after (ddl ++ more) := by
  rcases first with ⟨rfl, record, transaction⟩ | ⟨record, transaction⟩
  · have commit : between.openCommit = before.openCommit := by
      rw [openCommit, openCommit, transaction]
    unfold Told at second ⊢
    rwa [record, commit, transaction] at second
  · have commit : between.openCommit = [] := by rw [openCommit, transaction]; rfl
    rcases second with ⟨rfl, record', transaction'⟩ | ⟨record', transaction'⟩
    · refine .inr ⟨?_, transaction'.trans transaction⟩
      rw [record', record, List.append_nil]
    · refine .inr ⟨?_, transaction'⟩
      rw [record', record, commit, List.map_nil, List.append_nil, List.map_append,
        List.append_assoc]

theorem Database.SchemaChanged.told {d : Dialect} {before after : Database}
    {statements : List String} (changed : SchemaChanged before statements (.ok ()) after)
    {ddl : List Ddl} (texts : statements = ddl.map (Ddl.text d)) : Told d before after ddl := by
  obtain ⟨connection, executed⟩ := changed.ran rfl
  refine .inr ⟨?_, changed.closed rfl⟩
  rw [record, executed, ← texts, List.map_append, List.map_append, List.map_map]
  exact congrArg (_ ++ ·) (List.map_id _)

namespace Table

variable {d : Dialect} {t t' : Table} {db db' : Database}

open Catalog

/-- One operation on a table in step with its database. -/
theorem Regular.step (regular : t.Regular d) {operation : Operation} (same : db.workspace.dialect = d)
    (faithful : operation.Faithful d t)
    (ran : operation.alteration.run (t, db) = (.ok (), t', db')) :
    t'.Regular d ∧ db'.workspace.dialect = d ∧
      ∃ ddl, Database.Told d db db' ddl ∧ t.catalog.LeadsTo ddl t'.catalog := by
  obtain ⟨plan, planned, rfl, outcome⟩ := Operation.run_eq_ok regular.toRooted ran
  rw [same] at planned
  refine ⟨regular.plan planned faithful, ?_⟩
  rcases outcome with ⟨silent, rfl⟩ | ⟨statements, issues, changed⟩
  · refine ⟨same, [], .inl ⟨rfl, rfl, rfl⟩, ?_⟩
    rw [catalog_of_silent planned faithful silent]
    exact .nil _
  · obtain ⟨ddl, texts, leads⟩ := regular.leadsTo planned faithful issues
    exact ⟨by rw [changed.workspace, same], ddl, changed.told texts, leads⟩

/-- An index that is declared for a table in the database is in memory only: no statement is
issued, and the table is no longer what the database has. -/
theorem defineIndex_out_of_step (regular : t.Regular d) (same : db.workspace.dialect = d)
    (created : t.isCreated = true) {key : String} {unique : Bool}
    (ran : (Operation.defineIndex key unique).alteration.run (t, db) = (.ok (), t', db')) :
    db' = db ∧ t'.catalog ≠ t.catalog := by
  obtain ⟨plan, planned, rfl, outcome⟩ := Operation.run_eq_ok regular.toRooted ran
  rw [same] at planned
  cases planned with
  | defineIndex live found fresh =>
      have silent : db' = db := by
        rcases outcome with ⟨-, silent⟩ | ⟨statements, issues, -⟩
        · exact silent
        · cases issues
      refine ⟨silent, fun agree => ?_⟩
      dsimp only at agree
      generalize Index.onColumn d t.name _ unique = index at agree
      have created' : (t.withIndex index).isCreated = true := created
      rw [catalog_of_created created', catalog_of_created created] at agree
      have indices := congrArg (fun c : Catalog => c.tables.map fun t => t.indices.length) agree
      simp [entry, withIndex] at indices

/-- A run of successful operations on a table, from its beginning. -/
inductive Run (d : Dialect) (name : String) (start : Database) : Table → Database → Prop
  | new : Run d name start (new d name) start
  | step {t t' : Table} {db db' : Database} (before : Run d name start t db)
      (operation : Operation) (faithful : operation.Faithful d t)
      (ran : operation.alteration.run (t, db) = (.ok (), t', db')) : Run d name start t' db'

/-- Memory and database stay in step.  Whatever operations succeed on a table, the statements
that they issue, replayed from nothing, give the table and its sequences if it is in the
database, and nothing if it is not yet or no longer there; unless a name is given twice, which a
database would have refused. -/
theorem database_in_step (d : Dialect) (name : String) (start : Database)
    (same : start.workspace.dialect = d) (run : Run d name start t db) :
    ∃ ddl, Database.Told d start db ddl ∧
      (replay {} ddl = .ok t.catalog ∨ ∃ name, replay {} ddl = .error (.clash name)) := by
  have invariant : t.Regular d ∧ db.workspace.dialect = d ∧
      ∃ ddl, Database.Told d start db ddl ∧ LeadsTo {} ddl t.catalog := by
    induction run with
    | new =>
        refine ⟨.new d name, same, [], .inl ⟨rfl, rfl, rfl⟩, ?_⟩
        exact .nil _
    | step before operation faithful ran ih =>
        obtain ⟨regular, dialect, ddl, told, leads⟩ := ih
        obtain ⟨regular, dialect, more, toldMore, leadsMore⟩ := regular.step dialect faithful ran
        exact ⟨regular, dialect, ddl ++ more, told.trans toldMore, leads.append leadsMore⟩
  obtain ⟨-, -, ddl, told, leads⟩ := invariant
  exact ⟨ddl, told, leads List.nodup_nil⟩

section Shop

/-- A database that starts without statements. -/
def shop : Database where
  workspace := { dialect := .postgres, functions := {} }

theorem Run.next {name : String} {start : Database} (before : Run d name start t db)
    (operation : Operation) (faithful : operation.Faithful d t)
    (succeeded : (operation.alteration.run (t, db)).1 = .ok ()) :
    Run d name start (operation.alteration.run (t, db)).2.1 (operation.alteration.run (t, db)).2.2 :=
  .step before operation faithful (Prod.ext succeeded rfl)

/-- A table is declared, created and changed, and the database has followed. -/
theorem shop_in_step :
    ∃ t db, Run .postgres "item" shop t db ∧ t.name = "article" ∧
      db.record =
        ["CREATE SEQUENCE \"item_id_seq\"",
          "CREATE TABLE \"item\" (\"id\" INTEGER DEFAULT nextval('\"item_id_seq\"'), " ++
            "\"title\" VARCHAR(255), PRIMARY KEY (\"id\"))",
          "ALTER TABLE \"item\" RENAME COLUMN \"title\" TO \"label\"",
          "CREATE INDEX \"item_label_idx\" ON \"item\" (\"label\")",
          "ALTER TABLE \"item\" RENAME TO \"article\""] ∧
      ∃ ddl, Database.Told .postgres shop db ddl ∧
        (replay {} ddl = .ok t.catalog ∨ ∃ name, replay {} ddl = .error (.clash name)) := by
  have declared := (@Run.new .postgres "item" shop).next
    (.define { key := "id", kind := .int, isKey := true, isGenerated := true })
    (fun _ _ => nofun) (by decide +kernel)
  have titled := declared.next (.define { key := "title", kind := .text })
    (fun _ _ => nofun) (by decide +kernel)
  have created := titled.next .create trivial (by decide +kernel)
  have labelled := created.next (.renameColumn "title" "label") trivial (by decide +kernel)
  have indexed := labelled.next (.addIndex "title" false) trivial (by decide +kernel)
  have renamed := indexed.next (.rename "article") trivial (by decide +kernel)
  exact ⟨_, _, renamed, by decide +kernel, by decide +kernel,
    database_in_step .postgres "item" shop rfl renamed⟩

end Shop

end Table

end RowQuery
