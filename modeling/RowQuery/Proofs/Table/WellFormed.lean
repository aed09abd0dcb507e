import RowQuery.Dialect.Builtin
import RowQuery.Proofs.Table.Reached

/-!
# Well-formed tables

A column is addressed by its key in references and by its name in indices, and the names of
tables, columns and indices are kept once as they are and once between quotation marks.  All
this stays consistent while names change: in every table that is declared or found in a
database, and then altered by any operations, whether these succeed or fail.
-/

namespace RowQuery.Table

/-- The names in a table agree with each other.  Columns are told apart by their keys and by
their names; indices are on columns of the table and carry its name; references start from
columns of the table; and names are quoted in the way of the dialect. -/
structure WellFormed (d : Dialect) (t : Table) : Prop extends Declared d t, Rooted t where
  quotedTable : t.quotedName = d.quoteName t.name
  quotedIndices : ∀ i ∈ t.indices, i.quotedName = d.quoteName i.name
  ownIndices : ∀ i ∈ t.indices, i.table = t.name

variable {d : Dialect} {t t' : Table}

theorem eq_of_mem_keyIndices {table : String} {column : Column} {i : Index}
    (member : i ∈ keyIndices d table column) : i = .onColumn d table column.name true := by
  unfold keyIndices at member
  split at member
  · exact List.mem_singleton.1 member
  · cases member

/-- The catalog says what a column is, but not what the table is called. -/
theorem takeColumn_eq_ok {row : List Cell} (taken : Discovery.takeColumn d t row = .ok t') :
    ∃ (found : Discovery.CatalogColumn) (column : Column), found.spec.build t.name d = .ok column ∧
      column.key ∉ t.columns.map Column.key ∧ column.name ∉ t.columns.map Column.name ∧
      t' = { t.withColumn d column with
        columns := updateColumn found.complete found.name (t.withColumn d column).columns } := by
  obtain ⟨found, -, rest⟩ := Except.bind_eq_ok_iff.1 taken
  obtain ⟨made, defined, ended⟩ := Except.bind_eq_ok_iff.1 rest
  obtain ⟨column, built, rfl, freshKey, freshName⟩ := define_eq_ok defined
  exact ⟨found, column, built, freshKey, freshName, (Except.ok.inj ended).symm⟩

namespace WellFormed

theorem new (d : Dialect) (name : String) : (new d name).WellFormed d where
  toDeclared := declared_new d name
  toRooted := .new d name
  quotedTable := rfl
  quotedIndices := by simp [Table.new]
  ownIndices := by simp [Table.new]

/-- The state of the table does not matter. -/
theorem withState (wellFormed : t.WellFormed d) (state : TableState) :
    WellFormed d { t with state } where
  toDeclared := ⟨wellFormed.quoted, wellFormed.keys, wellFormed.names⟩
  toRooted := wellFormed.toRooted.of_eq rfl rfl rfl
  quotedTable := wellFormed.quotedTable
  quotedIndices := wellFormed.quotedIndices
  ownIndices := wellFormed.ownIndices

theorem withColumn (wellFormed : t.WellFormed d) {s : ColumnSpec} {column : Column}
    (built : s.build t.name d = .ok column) (freshKey : column.key ∉ t.columns.map Column.key)
    (freshName : column.name ∉ t.columns.map Column.name) :
    (t.withColumn d column).WellFormed d where
  toDeclared := wellFormed.toDeclared.withColumn built freshKey freshName
  toRooted := wellFormed.toRooted.withColumn column
  quotedTable := wellFormed.quotedTable
  quotedIndices := by
    intro i member
    rcases List.mem_append.1 member with old | new
    · exact wellFormed.quotedIndices i old
    · rw [eq_of_mem_keyIndices new]
      rfl
  ownIndices := by
    intro i member
    rcases List.mem_append.1 member with old | new
    · exact wellFormed.ownIndices i old
    · rw [eq_of_mem_keyIndices new]
      rfl

/-- An index that is named and quoted as it should be, on a column of the table. -/
theorem withIndices (wellFormed : t.WellFormed d) {indices : List Index}
    (known : ∀ i ∈ indices, i ∈ t.indices ∨ (i.column ∈ t.columns.map Column.name ∧
      i.quotedName = d.quoteName i.name ∧ i.table = t.name)) :
    WellFormed d { t with indices } where
  toDeclared := ⟨wellFormed.quoted, wellFormed.keys, wellFormed.names⟩
  indices := fun i member => (known i member).elim (wellFormed.indices i) fun new => new.1
  references := wellFormed.references
  quotedTable := wellFormed.quotedTable
  quotedIndices := fun i member =>
    (known i member).elim (wellFormed.quotedIndices i) fun new => new.2.1
  ownIndices := fun i member =>
    (known i member).elim (wellFormed.ownIndices i) fun new => new.2.2

theorem withIndex (wellFormed : t.WellFormed d) {column : Column} (member : column ∈ t.columns)
    (unique : Bool) : (t.withIndex (.onColumn d t.name column.name unique)).WellFormed d := by
  refine wellFormed.withIndices fun i known => ?_
  rcases List.mem_append.1 known with old | new
  · exact .inl old
  · rw [List.mem_singleton.1 new]
    exact .inr ⟨List.mem_map_of_mem member, rfl, rfl⟩

theorem forgetColumn (wellFormed : t.WellFormed d) (key : String) :
    (t.forgetColumn key).WellFormed d where
  toDeclared := wellFormed.toDeclared.forgetColumn key
  toRooted := wellFormed.toRooted.forgetColumn key
  quotedTable := by
    unfold Table.forgetColumn
    split <;> exact wellFormed.quotedTable
  quotedIndices := by
    unfold Table.forgetColumn
    split
    · exact wellFormed.quotedIndices
    · exact fun i member => wellFormed.quotedIndices i (List.mem_filter.1 member).1
  ownIndices := by
    unfold Table.forgetColumn
    split
    · exact wellFormed.ownIndices
    · exact fun i member => wellFormed.ownIndices i (List.mem_filter.1 member).1

theorem columnRenamed (wellFormed : t.WellFormed d) {key name : String} {column : Column}
    (found : t.column? key = some column) (fresh : name ∉ t.columns.map Column.name) :
    (t.columnRenamed d column name).WellFormed d where
  toDeclared := wellFormed.toDeclared.columnRenamed column fresh
  toRooted := wellFormed.toRooted.columnRenamed found name
  quotedTable := wellFormed.quotedTable
  quotedIndices := by
    intro i known
    obtain ⟨old, member, rfl⟩ := List.mem_map.1 known
    split <;> exact wellFormed.quotedIndices old member
  ownIndices := by
    intro i known
    obtain ⟨old, member, rfl⟩ := List.mem_map.1 known
    split <;> exact wellFormed.ownIndices old member

theorem renamed (wellFormed : t.WellFormed d) (name : String) :
    (t.renamed d name).WellFormed d where
  toDeclared := ⟨wellFormed.quoted, wellFormed.keys, wellFormed.names⟩
  toRooted := wellFormed.toRooted.renamed name
  quotedTable := rfl
  quotedIndices := by
    intro i known
    obtain ⟨old, member, rfl⟩ := List.mem_map.1 known
    exact wellFormed.quotedIndices old member
  ownIndices := by
    intro i known
    obtain ⟨old, -, rfl⟩ := List.mem_map.1 known
    rfl

theorem retargeted (wellFormed : t.WellFormed d) (old new : String) :
    (t.retargeted old new).WellFormed d where
  toDeclared := ⟨wellFormed.quoted, wellFormed.keys, wellFormed.names⟩
  toRooted := wellFormed.toRooted.retargeted old new
  quotedTable := wellFormed.quotedTable
  quotedIndices := wellFormed.quotedIndices
  ownIndices := wellFormed.ownIndices

/-- The step: every operation that does not refuse leaves a well-formed table. -/
theorem plan (wellFormed : t.WellFormed d) {operation : Operation} {plan : Plan}
    (planned : Planned d t operation plan) : plan.after.WellFormed d := by
  have rooted := wellFormed.toRooted.plan planned
  cases planned with
  | create => exact wellFormed.withState .created
  | drop => exact wellFormed.withState .dropped
  | rename => exact wellFormed.renamed _
  | extend live built freshKey freshName => exact wellFormed.withColumn built freshKey freshName
  | dropColumn => exact wellFormed.forgetColumn _
  | renameColumn live found fresh => exact wellFormed.columnRenamed found fresh
  | addIndex live found => exact wellFormed.withIndex (mem_of_column? found) _
  | dropIndex =>
      exact wellFormed.withIndices fun i member => .inl (List.mem_of_mem_eraseP member)
  | define fresh built freshKey freshName => exact wellFormed.withColumn built freshKey freshName
  | defineIndex live found => exact wellFormed.withIndex (mem_of_column? found) _
  | reference =>
      exact ⟨⟨wellFormed.quoted, wellFormed.keys, wellFormed.names⟩, rooted,
        wellFormed.quotedTable, wellFormed.quotedIndices, wellFormed.ownIndices⟩

/-- A table stays so, whatever comes of an operation. -/
theorem run {db : Database} (wellFormed : t.WellFormed db.workspace.dialect)
    (operation : Operation) :
    (operation.alteration.run (t, db)).2.1.WellFormed db.workspace.dialect :=
  operation.run_keeps wellFormed.toRooted wellFormed db wellFormed.plan

/-! ## Tables from the catalog of a database -/

theorem takeColumn {row : List Cell} (wellFormed : t.WellFormed d)
    (taken : Discovery.takeColumn d t row = .ok t') : t'.WellFormed d ∧ t'.name = t.name := by
  have declared := wellFormed.toDeclared.takeColumn taken
  have rooted := wellFormed.toRooted.takeColumn taken
  obtain ⟨found, column, built, freshKey, freshName, rfl⟩ := takeColumn_eq_ok taken
  have extended := wellFormed.withColumn built freshKey freshName
  exact ⟨⟨declared, rooted, extended.quotedTable, extended.quotedIndices, extended.ownIndices⟩, rfl⟩

theorem takeColumns {rows : List (List Cell)} (wellFormed : t.WellFormed d)
    (taken : rows.foldlM (Discovery.takeColumn d) t = .ok t') :
    t'.WellFormed d ∧ t'.name = t.name := by
  induction rows generalizing t with
  | nil =>
      obtain rfl := Except.ok.inj taken
      exact ⟨wellFormed, rfl⟩
  | cons row rows ih =>
      rw [List.foldlM_cons] at taken
      obtain ⟨between, first, rest⟩ := Except.bind_eq_ok_iff.1 taken
      obtain ⟨extended, name⟩ := wellFormed.takeColumn first
      obtain ⟨whole, same⟩ := ih extended rest
      exact ⟨whole, same.trans name⟩

/-- An index from the catalog of a table. -/
theorem readIndex?_eq_some {name : String} {row : List Cell} {index : Index}
    (read : Discovery.readIndex? d name row = some index) :
    index.quotedName = d.quoteName index.name ∧ index.table = name := by
  obtain ⟨_, -, rest⟩ := Option.bind_eq_some_iff.1 read
  obtain ⟨_, -, ended⟩ := Option.bind_eq_some_iff.1 rest
  obtain rfl := Option.some.inj ended
  exact ⟨rfl, rfl⟩

theorem takeIndices {indices : List Index} {seen : List String} (wellFormed : t.WellFormed d)
    (own : ∀ i ∈ indices, i.quotedName = d.quoteName i.name ∧ i.table = t.name)
    (taken : Discovery.takeIndices t seen indices = .ok t') : t'.WellFormed d := by
  induction indices generalizing t seen with
  | nil =>
      obtain rfl := Except.ok.inj taken
      exact wellFormed
  | cons index rest ih =>
      rw [List.forall_mem_cons] at own
      rw [Discovery.takeIndices] at taken
      split at taken
      · exact ih wellFormed own.2 taken
      · split at taken
        · cases taken
        · rename_i known
          have known : index.column ∈ t.columns.map Column.name := by simpa using known
          refine ih (t := t.attachIndex index) ?_ own.2 taken
          refine wellFormed.withIndices fun other member => ?_
          rcases List.mem_append.1 member with old | new
          · exact .inl (List.mem_filter.1 old).1
          · rw [List.mem_singleton.1 new]
            exact .inr ⟨known, own.1⟩

theorem discoverTable {name : String} {db db' : Database}
    (discovered : (Discovery.discoverTable name).run db = (.ok t, db')) :
    t.WellFormed db.workspace.dialect := by
  obtain ⟨dialect, _, asked, rest⟩ := ExceptT.run_bind_eq_ok_iff.1 discovered
  obtain rfl : db.workspace.dialect = dialect := Except.ok.inj (congrArg Prod.fst asked)
  obtain ⟨columns, _, -, rest⟩ := ExceptT.run_bind_eq_ok_iff.1 rest
  obtain ⟨declared, _, taken, rest⟩ := ExceptT.run_bind_eq_ok_iff.1 rest
  rw [ExceptT.run_liftExcept] at taken
  obtain ⟨extended, named⟩ := (new _ name).takeColumns (congrArg Prod.fst taken)
  split at rest
  · obtain rfl := Except.ok.inj (congrArg Prod.fst rest)
    exact extended.withState .created
  · obtain ⟨indices, _, -, rest⟩ := ExceptT.run_bind_eq_ok_iff.1 rest
    obtain ⟨indexed, _, taken, rest⟩ := ExceptT.run_bind_eq_ok_iff.1 rest
    rw [ExceptT.run_liftExcept] at taken
    obtain rfl := Except.ok.inj (congrArg Prod.fst rest)
    refine (extended.takeIndices (fun i member => ?_) (congrArg Prod.fst taken)).withState .created
    obtain ⟨row, -, read⟩ := List.mem_filterMap.1 member
    rw [named]
    exact readIndex?_eq_some read

end WellFormed

/-- The tables that programs can have in a dialect: declared or found in a database, and then
altered by any operations on databases of that dialect, whether these succeed or fail. -/
inductive ReachedIn (d : Dialect) : Table → Prop
  | new (name : String) : ReachedIn d (new d name)
  | discover {name : String} {db db' : Database} {found : Table}
      (same : db.workspace.dialect = d)
      (discovered : (Discovery.discoverTable name).run db = (.ok found, db')) : ReachedIn d found
  | operate {t : Table} (before : ReachedIn d t) (operation : Operation) {db : Database}
      (same : db.workspace.dialect = d) :
      ReachedIn d (operation.alteration.run (t, db)).2.1
  | retarget {t : Table} (before : ReachedIn d t) (old new : String) :
      ReachedIn d (t.retargeted old new)

/-- Whatever is done with a table, its names agree with each other and with those that are
quoted. -/
theorem reached_wellFormed (d : Dialect) (t : Table) (reached : t.ReachedIn d) :
    t.WellFormed d := by
  induction reached with
  | new name => exact .new d name
  | discover same discovered => exact same ▸ WellFormed.discoverTable discovered
  | operate _ operation same ih =>
      subst same
      exact ih.run operation
  | retarget _ old new ih => exact ih.retargeted old new

section Archive

/-- A database that will not rename its table. -/
def archive : Database where
  workspace := { dialect := .postgres, functions := {} }
  recorder := Recorder.scripted {} "ALTER TABLE \"book\" RENAME TO" (.error (.connection "denied"))

/-- The table after some operations, whatever comes of them. -/
def afterAll (t : Table) (operations : List Operation) : Table :=
  operations.foldl (fun t operation => (operation.alteration.run (t, archive)).2.1) t

theorem ReachedIn.afterAll {t : Table} (reached : t.ReachedIn .postgres)
    (operations : List Operation) : (t.afterAll operations).ReachedIn .postgres := by
  induction operations generalizing t with
  | nil => exact reached
  | cons operation rest ih =>
      have postgres : archive.workspace.dialect = .postgres := rfl
      exact ih (reached.operate operation postgres)

/-- A table with an index on a column, which is renamed; the archive does not rename the table. -/
def book : Table :=
  (new .postgres "book").afterAll
    [.define { key := "note", kind := .text }, .create, .addIndex "note" false,
      .renameColumn "note" "label", .rename "volume"]

/-- The index has followed the column, and the names of the table are those of before. -/
theorem book_wellFormed :
    (book.name, book.columns.map (fun c => (c.key, c.name, c.quotedName)),
        book.indices.map (fun i => (i.name, i.table, i.column))) =
      ("book", [("note", "label", "\"label\"")], [("book_note_idx", "book", "label")]) ∧
      book.WellFormed .postgres := by
  have reached : book.ReachedIn .postgres := ReachedIn.afterAll (.new "book") _
  exact ⟨by decide +kernel, reached_wellFormed .postgres book reached⟩

end Archive

end RowQuery.Table

/-!
# Tables that can be created

A column is declared only if its default can be written and if it is not generated as well.
Renaming does not change that, so the statements of a table that is not in the database yet can
always be written.
-/

namespace RowQuery

/-- The declaration of a column can be written. -/
structure Column.Definable (d : Dialect) (c : Column) : Prop where
  generated : c.isGenerated = true → c.default = none
  encoded : ∀ value, c.default = some value → ∃ literal, c.encode d value = .ok literal

namespace Table

variable {d : Dialect} {t : Table}

theorem defaultClause_of_definable {c : Column} (definable : c.Definable d) :
    ∃ clause, d.defaultClause c = .ok clause := by
  unfold Dialect.defaultClause
  cases given : c.default with
  | none => exact ⟨"", rfl⟩
  | some value =>
      obtain ⟨literal, encoded⟩ := definable.encoded value given
      cases null : value.isNull with
      | true => exact ⟨"", by simp [Option.filter, null]⟩
      | false => exact ⟨" DEFAULT " ++ literal, by simp [Option.filter, null, encoded]; rfl⟩

theorem columnDefinition_of_definable {c : Column} (definable : c.Definable d) :
    ∃ text, d.columnDefinition c = .ok text := by
  obtain ⟨clause, written⟩ := defaultClause_of_definable definable
  unfold Dialect.columnDefinition
  rw [written]
  split
  · split
    · exact ⟨_, rfl⟩
    · exact ⟨_, rfl⟩
  · split
    · rename_i both
      rw [Bool.and_eq_true] at both
      rw [definable.generated both.1] at both
      simp at both
    · exact ⟨_, rfl⟩

theorem definable_of_build {s : ColumnSpec} {table : String} {column : Column}
    (built : s.build table d = .ok column) : column.Definable d := by
  obtain ⟨_, checked, rest⟩ := Except.bind_eq_ok_iff.1 built
  obtain ⟨type, resolved, rest⟩ := Except.bind_eq_ok_iff.1 rest
  obtain ⟨type', -, column_eq⟩ := build_eq built
  constructor
  · intro generated
    have spec : s.isGenerated = true := (congrArg Column.isGenerated column_eq).symm.trans generated
    have default : column.default = s.givenDefault := congrArg Column.default column_eq
    rw [default]
    cases given : s.givenDefault with
    | none => rfl
    | some value =>
        exfalso
        simp only [ColumnSpec.check, spec, given] at checked
        split at checked
        · cases checked
        · split at checked
          · cases checked
          · simp at checked
  · intro value given
    have default : s.givenDefault = some value :=
      (congrArg Column.default column_eq).symm.trans given
    dsimp only at rest
    simp only [default] at rest
    obtain ⟨literal, encoded, ended⟩ := Except.bind_eq_ok_iff.1 rest
    exact ⟨literal, Except.ok.inj ended ▸ encoded⟩

theorem isCreated_of_uncreated (uncreated : t.state = .uncreated) : t.isCreated = false := by
  simp [isCreated, uncreated]

theorem ensureLive_of_uncreated (uncreated : t.state = .uncreated) : t.ensureLive = .ok () := by
  simp [ensureLive, uncreated]

/-- As long as the table is not in the database its columns can be declared. -/
def Creatable (d : Dialect) (t : Table) : Prop :=
  t.state = .uncreated → ∀ c ∈ t.columns, c.Definable d

theorem uncreated_before {operation : Operation} {plan : Plan}
    (planned : Planned d t operation plan) (uncreated : plan.after.state = .uncreated) :
    t.state = .uncreated := by
  cases planned with
  | create | drop => cases uncreated
  | rename | extend | renameColumn | addIndex | dropIndex | define | defineIndex | reference =>
      exact uncreated
  | dropColumn live found =>
      unfold forgetColumn at uncreated
      rwa [found] at uncreated

theorem Creatable.plan (creatable : t.Creatable d) {operation : Operation} {plan : Plan}
    (planned : Planned d t operation plan) : plan.after.Creatable d := by
  intro uncreated
  have own := creatable (uncreated_before planned uncreated)
  have extended {s : ColumnSpec} {column : Column} (built : s.build t.name d = .ok column) :
      ∀ c ∈ (t.withColumn d column).columns, c.Definable d := by
    intro c member
    rcases List.mem_append.1 member with old | new
    · exact own c old
    · exact List.mem_singleton.1 new ▸ definable_of_build built
  cases planned with
  | create | drop => cases uncreated
  | rename | addIndex | dropIndex | defineIndex | reference => exact own
  | extend live built => exact extended built
  | define fresh built => exact extended built
  | dropColumn live found =>
      unfold forgetColumn
      rw [found]
      exact fun c member => own c (List.mem_of_mem_eraseP member)
  | renameColumn =>
      refine forall_updateColumn own fun c member => ?_
      exact ⟨(own c member).generated, (own c member).encoded⟩

theorem ReachedIn.reached (reached : t.ReachedIn d) : t.Reached := by
  induction reached with
  | new name => exact .new d name
  | discover _ discovered => exact .discover discovered
  | operate _ operation _ ih => exact ih.operate operation _
  | retarget _ old new ih => exact ih.retarget old new

theorem created_of_discoverTable {name : String} {db db' : Database}
    (discovered : (Discovery.discoverTable name).run db = (.ok t, db')) : t.state = .created := by
  obtain ⟨dialect, _, -, rest⟩ := ExceptT.run_bind_eq_ok_iff.1 discovered
  obtain ⟨columns, _, -, rest⟩ := ExceptT.run_bind_eq_ok_iff.1 rest
  obtain ⟨declared, _, -, rest⟩ := ExceptT.run_bind_eq_ok_iff.1 rest
  split at rest
  · obtain rfl := Except.ok.inj (congrArg Prod.fst rest)
    rfl
  · obtain ⟨indices, _, -, rest⟩ := ExceptT.run_bind_eq_ok_iff.1 rest
    obtain ⟨indexed, _, -, rest⟩ := ExceptT.run_bind_eq_ok_iff.1 rest
    obtain rfl := Except.ok.inj (congrArg Prod.fst rest)
    rfl

theorem ReachedIn.creatable (reached : t.ReachedIn d) : t.Creatable d := by
  induction reached with
  | new name => exact fun _ => by simp [Table.new]
  | discover _ discovered =>
      intro uncreated
      rw [created_of_discoverTable discovered] at uncreated
      cases uncreated
  | operate before operation same ih =>
      subst same
      exact operation.run_keeps before.reached.rooted ih _ ih.plan
  | retarget _ old new ih => exact ih

/-- The statements of a table that is not in the database can be written. -/
theorem ReachedIn.createTable_ok (reached : t.ReachedIn d) (uncreated : t.state = .uncreated) :
    ∃ statements, d.createTable t = .ok statements := by
  have defined : ∃ definitions, t.columns.mapM d.columnDefinition = .ok definitions := by
    have each := reached.creatable uncreated
    generalize t.columns = columns at each
    induction columns with
    | nil => exact ⟨[], rfl⟩
    | cons c columns ih =>
        rw [List.forall_mem_cons] at each
        obtain ⟨text, head⟩ := columnDefinition_of_definable each.1
        obtain ⟨texts, tail⟩ := ih each.2
        exact ⟨text :: texts, by rw [List.mapM_cons, head, tail]; rfl⟩
  obtain ⟨definitions, defined⟩ := defined
  unfold Dialect.createTable
  rw [defined]
  exact ⟨_, rfl⟩

end Table

end RowQuery
