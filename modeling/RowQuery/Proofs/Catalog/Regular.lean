import RowQuery.Proofs.Catalog.Statement
import RowQuery.Proofs.Table.WellFormed

/-!
# Tables as a catalog has them

What a database has of a table, and the statements of the table with their structure: their
texts are those that the operations issue.
-/

namespace RowQuery

/-! ## Columns, indices and tables as a catalog has them -/

def Index.entry (i : Index) : CatalogIndex :=
  { name := i.name, table := i.table, column := i.column, unique := i.unique }

/-- The key is declared with the column. -/
def Column.declaresKey (d : Dialect) (c : Column) : Bool :=
  d.declaresKeyInline && (c.isGenerated && c.isKey)

def Column.clause (d : Dialect) (c : Column) (rest : String) : ColumnClause :=
  { name := c.name, type := if c.declaresKey d then "INTEGER" else c.type.declared,
    isKey := c.declaresKey d, rest }

namespace Table

def sequences (t : Table) : List String :=
  t.columns.filterMap Column.sequence

def entry (t : Table) : CatalogTable :=
  { name := t.name, columns := t.columns.map fun c => (c.name, c.type.declared),
    keys := t.keyColumns.map Column.name, indices := t.indices.map Index.entry }

/-- What a database has of a table. -/
def catalog (t : Table) : Catalog :=
  if t.isCreated then ⟨[t.entry], t.sequences⟩ else {}

/-- What every operation keeps of a table: names are told apart and quoted, indices are those
of the table and on its columns, and a key that is declared with its column is an integer. -/
structure Regular (d : Dialect) (t : Table) : Prop extends Declared d t, Rooted t where
  quotedTable : t.quotedName = d.quoteName t.name
  quotedIndices : ∀ i ∈ t.indices, i.quotedName = d.quoteName i.name
  ownIndices : ∀ i ∈ t.indices, i.table = t.name
  integerKeys : ∀ c ∈ t.columns, c.declaresKey d = true → c.type.declared = "INTEGER"

/-- The declaration of a key that is declared with its column is that of an integer. -/
def IntegerKey (d : Dialect) (s : ColumnSpec) : Prop :=
  ∀ type, d.types.resolve s.kind s.request = .ok type →
    (d.declaresKeyInline && (s.isGenerated && s.isKey)) = true → type.declared = "INTEGER"

/-- The operation changes nothing in memory behind the back of the database. -/
def Operation.Faithful (d : Dialect) (t : Table) : Operation → Prop
  | .defineIndex _ _ => t.isCreated = false
  | .extend spec => (t.isCreated = true → spec.isKey = false) ∧ IntegerKey d spec
  | .define spec => IntegerKey d spec
  | _ => True

variable {d : Dialect} {t : Table}

namespace Regular

theorem wellFormed (regular : t.Regular d) : t.WellFormed d :=
  ⟨regular.toDeclared, regular.toRooted, regular.quotedTable, regular.quotedIndices,
    regular.ownIndices⟩

theorem ofWellFormed (wellFormed : t.WellFormed d)
    (integerKeys : ∀ c ∈ t.columns, c.declaresKey d = true → c.type.declared = "INTEGER") :
    t.Regular d :=
  ⟨wellFormed.toDeclared, wellFormed.toRooted, wellFormed.quotedTable, wellFormed.quotedIndices,
    wellFormed.ownIndices, integerKeys⟩

theorem new (d : Dialect) (name : String) : (new d name).Regular d :=
  ofWellFormed (.new d name) (by simp [Table.new])

/-- The types of the columns, in a table that has one more. -/
theorem integerKeys_withColumn (regular : t.Regular d) {s : ColumnSpec} {column : Column}
    (built : s.build t.name d = .ok column) (integer : IntegerKey d s) :
    ∀ c ∈ (t.withColumn d column).columns, c.declaresKey d = true → c.type.declared = "INTEGER" := by
  intro c member
  rcases List.mem_append.1 member with old | new
  · exact regular.integerKeys c old
  · rw [List.mem_singleton.1 new]
    obtain ⟨type, resolved, rfl⟩ := build_eq built
    exact integer type resolved

theorem integerKeys_forgetColumn (regular : t.Regular d) (key : String) :
    ∀ c ∈ (t.forgetColumn key).columns, c.declaresKey d = true → c.type.declared = "INTEGER" := by
  unfold Table.forgetColumn
  split
  · exact regular.integerKeys
  · exact fun c member => regular.integerKeys c (List.mem_of_mem_eraseP member)

/-- Every operation keeps it, unless it declares a key of another type than the database. -/
theorem plan (regular : t.Regular d) {operation : Operation} {plan : Plan}
    (planned : Planned d t operation plan) (faithful : operation.Faithful d t) :
    plan.after.Regular d := by
  refine ofWellFormed (regular.wellFormed.plan planned) ?_
  cases planned with
  | create | drop | reference | rename | addIndex | dropIndex | defineIndex =>
      exact regular.integerKeys
  | extend live built => exact regular.integerKeys_withColumn built faithful.2
  | define fresh built => exact regular.integerKeys_withColumn built faithful
  | dropColumn => exact regular.integerKeys_forgetColumn _
  | renameColumn =>
      exact forall_updateColumn regular.integerKeys fun c member => regular.integerKeys c member

end Regular

/-! ## The texts of statements -/

theorem columnDefinition_eq_ok {c : Column} {text : String}
    (quoted : c.quotedName = d.quoteName c.name) (defined : d.columnDefinition c = .ok text) :
    ∃ rest, text = (c.clause d rest).text d := by
  unfold Dialect.columnDefinition at defined
  unfold ColumnClause.text Column.clause Column.declaresKey
  cases inlined : d.declaresKeyInline with
  | true =>
      cases key : c.isGenerated && c.isKey with
      | true =>
          simp only [inlined, key, if_true] at defined
          refine ⟨"", ?_⟩
          rw [← Except.ok.inj defined, quoted]
          simp [String.append_assoc]
      | false =>
          simp only [inlined, key, if_true, Bool.false_eq_true, if_false] at defined
          obtain ⟨default, -, ended⟩ := Except.bind_eq_ok_iff.1 defined
          refine ⟨default, ?_⟩
          rw [← Except.ok.inj ended, Dialect.typedName, quoted]
          simp
  | false =>
      simp only [inlined, Bool.false_eq_true, if_false] at defined
      split at defined
      · cases defined
      · obtain ⟨default, -, ended⟩ := Except.bind_eq_ok_iff.1 defined
        refine ⟨d.generationClause c ++ default, ?_⟩
        rw [← Except.ok.inj ended, Dialect.typedName, quoted]
        simp [String.append_assoc]

/-- The columns of a statement are those of the table. -/
def Clauses (d : Dialect) (t : Table) : List ColumnClause → Prop :=
  List.Forall₂ (fun c clause => ∃ rest, clause = c.clause d rest) t.columns

theorem Clauses.map_eq {β : Type} {clauses : List ColumnClause} (listed : Clauses d t clauses)
    {f : ColumnClause → β} {g : Column → β}
    (same : ∀ c ∈ t.columns, ∀ rest, f (c.clause d rest) = g c) :
    clauses.map f = t.columns.map g := by
  unfold Clauses at listed
  generalize t.columns = columns at listed same
  induction listed with
  | nil => rfl
  | cons head _ ih =>
      obtain ⟨rest, rfl⟩ := head
      rw [List.forall_mem_cons] at same
      rw [List.map_cons, List.map_cons, same.1 rest, ih same.2]

/-- The primary key that is declared behind the columns. -/
def separateKeys (d : Dialect) (t : Table) : List String :=
  if d.keyIsInline t then [] else t.keyColumns.map Column.name

/-- The statements that create a table. -/
def creation (d : Dialect) (t : Table) (clauses : List ColumnClause) : List Ddl :=
  t.sequences.map .createSequence ++
    .createTable t.name clauses (t.separateKeys d) ::
      t.indices.map fun i => .createIndex i.entry

theorem text_createIndex {i : Index} (quoted : i.quotedName = d.quoteName i.name) :
    (Ddl.createIndex i.entry).text d = d.createIndex i :=
  congrArg (fun name => "CREATE " ++ (if i.unique then "UNIQUE " else "") ++ "INDEX " ++ name ++
    " ON " ++ d.quoteName i.table ++ " " ++ Text.bracketed (d.quoteName i.column)) quoted.symm

theorem text_renameColumn (regular : t.Regular d) {column : Column} (member : column ∈ t.columns)
    (name : String) :
    (Ddl.renameColumn t.name column.name name).text d = d.renameColumn t column name := by
  change "ALTER TABLE " ++ d.quoteName t.name ++ " RENAME COLUMN " ++ d.quoteName column.name ++
      " TO " ++ d.quoteName name =
    "ALTER TABLE " ++ t.quotedName ++ " RENAME COLUMN " ++ column.quotedName ++ " TO " ++
      d.quoteName name
  rw [regular.quotedTable, regular.quoted column member]

theorem keyTexts_separateKeys (wellFormed : t.WellFormed d) :
    Ddl.keyTexts d (t.separateKeys d) = d.keyClauses t := by
  have quoted : (t.keyColumns.map Column.name).map d.quoteName =
      t.keyColumns.map Column.quotedName := by
    rw [List.map_map]
    refine List.map_congr_left fun c member => ?_
    exact (wellFormed.quoted c (List.mem_filter.1 member).1).symm
  unfold Ddl.keyTexts separateKeys Dialect.keyClauses
  cases d.keyIsInline t with
  | true => simp
  | false => simp [quoted]

theorem exists_clauses (wellFormed : t.WellFormed d) {definitions : List String}
    (defined : t.columns.mapM d.columnDefinition = .ok definitions) :
    ∃ clauses, Clauses d t clauses ∧ definitions = clauses.map (ColumnClause.text d) := by
  replace defined := Except.mapM_eq_ok_iff.1 defined
  have quoted := wellFormed.quoted
  unfold Clauses
  clear wellFormed
  generalize t.columns = columns at defined quoted
  induction defined with
  | nil => exact ⟨[], .nil, rfl⟩
  | cons head _ ih =>
      rw [List.forall_mem_cons] at quoted
      obtain ⟨clauses, listed, texts⟩ := ih quoted.2
      obtain ⟨rest, text⟩ := columnDefinition_eq_ok quoted.1 head
      exact ⟨_, .cons ⟨rest, rfl⟩ listed, by rw [List.map_cons, text, texts]⟩

theorem createTable_eq_ok (wellFormed : t.WellFormed d) {statements : List String}
    (written : d.createTable t = .ok statements) :
    ∃ clauses, Clauses d t clauses ∧ statements = (creation d t clauses).map (Ddl.text d) := by
  obtain ⟨definitions, defined, ended⟩ := Except.bind_eq_ok_iff.1 written
  obtain ⟨clauses, listed, texts⟩ := exists_clauses wellFormed defined
  refine ⟨clauses, listed, ?_⟩
  have table : (Ddl.createTable t.name clauses (t.separateKeys d)).text d =
      "CREATE TABLE " ++ t.quotedName ++ " " ++
        Text.bracketed (Text.join ", " (definitions ++ d.keyClauses t)) := by
    rw [← keyTexts_separateKeys wellFormed, texts, wellFormed.quotedTable]
    rfl
  have indices : t.indices.map (fun i => (Ddl.createIndex i.entry).text d) =
      t.indices.map d.createIndex :=
    List.map_congr_left fun i member => text_createIndex (wellFormed.quotedIndices i member)
  rw [← Except.ok.inj ended, creation, List.map_append, List.map_cons, table, List.map_map,
    List.map_map, List.append_assoc]
  exact congrArg (_ ++ _ :: ·) indices.symm

end Table

end RowQuery
