import Mathlib.Data.List.Nodup
import RowQuery.Proofs.Steps
import RowQuery.Table.Statements

/-!
# Statements that change a catalog

The statements that change tables have a structure of which their text is one rendering.  A
catalog of tables and sequences says what they do: it refuses a statement that gives a name
twice or names something that is not there, and otherwise the objects change as the statement
says.  Dropping a column drops its indices.
-/

namespace RowQuery

/-- The declaration of a column in a statement. -/
structure ColumnClause where
  name : String
  type : String
  /-- The column is declared as the primary key. -/
  isKey : Bool
  /-- What generates the values, and the default. -/
  rest : String

def ColumnClause.text (d : Dialect) (c : ColumnClause) : String :=
  d.quoteName c.name ++ " " ++ c.type ++
    (if c.isKey then " PRIMARY KEY AUTOINCREMENT" else "") ++ c.rest

/-- An index as a statement and a catalog have it. -/
structure CatalogIndex where
  name : String
  table : String
  column : String
  unique : Bool
  deriving DecidableEq

/-- A statement that changes a catalog. -/
inductive Ddl where
  | createSequence (name : String)
  | dropSequence (name : String)
  | createTable (table : String) (columns : List ColumnClause) (keys : List String)
  | dropTable (table : String)
  | renameTable (old new : String)
  | addColumn (table : String) (column : ColumnClause)
  | dropColumn (table column : String)
  | renameColumn (table old new : String)
  | createIndex (index : CatalogIndex)
  | dropIndex (name table : String)

namespace Ddl

/-- The primary key as a part of its table. -/
def keyTexts (d : Dialect) (keys : List String) : List String :=
  if keys.isEmpty then []
  else ["PRIMARY KEY (" ++ Text.join ", " (keys.map d.quoteName) ++ ")"]

/-- The statement in SQL. -/
def text (d : Dialect) : Ddl → String
  | createSequence name => d.createSequence name
  | dropSequence name => d.dropSequence name
  | createTable table columns keys =>
      "CREATE TABLE " ++ d.quoteName table ++ " " ++
        Text.bracketed (Text.join ", " (columns.map (ColumnClause.text d) ++ keyTexts d keys))
  | dropTable table => "DROP TABLE " ++ d.quoteName table
  | renameTable old new => d.renameTable old new
  | addColumn table column =>
      "ALTER TABLE " ++ d.quoteName table ++ " ADD COLUMN " ++ column.text d
  | dropColumn table column =>
      "ALTER TABLE " ++ d.quoteName table ++ " DROP COLUMN " ++ d.quoteName column
  | renameColumn table old new =>
      "ALTER TABLE " ++ d.quoteName table ++ " RENAME COLUMN " ++ d.quoteName old ++ " TO " ++
        d.quoteName new
  | createIndex index =>
      "CREATE " ++ (if index.unique then "UNIQUE " else "") ++ "INDEX " ++
        d.quoteName index.name ++ " ON " ++ d.quoteName index.table ++ " " ++
        Text.bracketed (d.quoteName index.column)
  | dropIndex name table => d.dropIndex (d.quoteName name) table

end Ddl

/-- A table in a catalog. -/
structure CatalogTable where
  name : String
  /-- Name and type of each column. -/
  columns : List (String × String)
  /-- The columns of the primary key. -/
  keys : List String
  indices : List CatalogIndex
  deriving DecidableEq

def CatalogTable.hasColumn (t : CatalogTable) (name : String) : Bool :=
  t.columns.any fun column => column.1 = name

/-- The tables and sequences of a database. -/
structure Catalog where
  tables : List CatalogTable := []
  sequences : List String := []
  deriving DecidableEq

/-- Why a catalog refuses a statement. -/
inductive Refusal where
  /-- A name is taken, or there is a primary key already. -/
  | clash (name : String)
  | missing (name : String)
  deriving DecidableEq

namespace Catalog

/-- Change the table of a name. -/
def alter (name : String) (change : CatalogTable → Except Refusal CatalogTable) :
    List CatalogTable → Except Refusal (List CatalogTable)
  | [] => .error (.missing name)
  | t :: rest =>
      if t.name = name then do
        let changed ← change t
        .ok (changed :: rest)
      else do
        let rest ← alter name change rest
        .ok (t :: rest)

/-- Change a table in its place. -/
def alterTable (c : Catalog) (name : String)
    (change : CatalogTable → Except Refusal CatalogTable) : Except Refusal Catalog := do
  let tables ← alter name change c.tables
  .ok { c with tables }

/-- The primary key of a new table, which is declared at most once. -/
def primaryKey (columns : List ColumnClause) (keys : List String) :
    Except Refusal (List String) :=
  match (columns.filter ColumnClause.isKey).map ColumnClause.name, keys with
  | [], keys => .ok keys
  | [key], [] => .ok [key]
  | _, _ => .error (.clash "PRIMARY KEY")

/-- What a statement does. -/
def apply (c : Catalog) : Ddl → Except Refusal Catalog
  | .createSequence name =>
      if name ∈ c.sequences then .error (.clash name)
      else .ok { c with sequences := c.sequences ++ [name] }
  | .dropSequence name =>
      if name ∈ c.sequences then .ok { c with sequences := c.sequences.erase name }
      else .error (.missing name)
  | .createTable table columns keys => do
      if c.tables.any fun t => t.name = table then .error (.clash table)
      if !decide (columns.map ColumnClause.name).Nodup then .error (.clash table)
      let keys ← primaryKey columns keys
      .ok { c with tables := c.tables ++
        [{ name := table, columns := columns.map fun column => (column.name, column.type), keys,
           indices := [] }] }
  | .dropTable table =>
      if c.tables.any fun t => t.name = table then
        .ok { c with tables := c.tables.filter fun t => t.name ≠ table }
      else .error (.missing table)
  | .renameTable old new =>
      if c.tables.any fun t => t.name = new then .error (.clash new)
      else c.alterTable old fun t =>
        .ok { t with name := new, indices := t.indices.map fun i => { i with table := new } }
  | .addColumn table column =>
      c.alterTable table fun t => do
        if t.hasColumn column.name then .error (.clash column.name)
        let keys ←
          if column.isKey then
            if t.keys.isEmpty then .ok [column.name] else .error (.clash "PRIMARY KEY")
          else .ok t.keys
        .ok { t with columns := t.columns ++ [(column.name, column.type)], keys }
  | .dropColumn table column =>
      c.alterTable table fun t =>
        if t.hasColumn column then
          .ok { t with
            columns := t.columns.filter fun c => c.1 ≠ column
            keys := t.keys.filter fun key => key ≠ column
            indices := t.indices.filter fun i => i.column ≠ column }
        else .error (.missing column)
  | .renameColumn table old new =>
      c.alterTable table fun t =>
        if t.hasColumn new then .error (.clash new)
        else if t.hasColumn old then
          .ok { t with
            columns := t.columns.map fun c => if c.1 = old then (new, c.2) else c
            keys := t.keys.map fun key => if key = old then new else key
            indices := t.indices.map fun i => if i.column = old then { i with column := new } else i }
        else .error (.missing old)
  | .createIndex index =>
      if c.tables.any fun t => t.indices.any fun i => i.name = index.name then
        .error (.clash index.name)
      else c.alterTable index.table fun t =>
        if t.hasColumn index.column then .ok { t with indices := t.indices ++ [index] }
        else .error (.missing index.column)
  | .dropIndex name table =>
      c.alterTable table fun t =>
        if t.indices.any fun i => i.name = name then
          .ok { t with indices := t.indices.eraseP fun i => i.name = name }
        else .error (.missing name)

/-- What statements do one after the other. -/
def replay (c : Catalog) (statements : List Ddl) : Except Refusal Catalog :=
  statements.foldlM apply c

variable {c c' c'' : Catalog} {s : Ddl} {statements more : List Ddl}

theorem replay_cons : c.replay (s :: statements) = (do (← c.apply s).replay statements) :=
  List.foldlM_cons

theorem replay_append :
    c.replay (statements ++ more) = (do (← c.replay statements).replay more) :=
  List.foldlM_append

/-- No statement gives the name of a sequence twice. -/
theorem apply_nodup (nodup : c.sequences.Nodup) (applied : c.apply s = .ok c') :
    c'.sequences.Nodup := by
  have alterTable {name change} (altered : c.alterTable name change = .ok c') :
      c'.sequences.Nodup := by
    obtain ⟨tables, -, ended⟩ := Except.bind_eq_ok_iff.1 altered
    obtain rfl := Except.ok.inj ended
    exact nodup
  cases s with
  | createSequence name =>
      rw [apply] at applied
      split at applied
      · cases applied
      · rename_i free
        obtain rfl := Except.ok.inj applied
        rw [← List.concat_eq_append]
        exact nodup.concat free
  | dropSequence name =>
      rw [apply] at applied
      split at applied
      · obtain rfl := Except.ok.inj applied
        exact nodup.erase name
      · cases applied
  | createTable table columns keys =>
      rw [apply] at applied
      split at applied
      · cases applied
      · split at applied
        · cases applied
        · obtain ⟨keys, -, ended⟩ := Except.bind_eq_ok_iff.1 applied
          obtain rfl := Except.ok.inj ended
          exact nodup
  | dropTable table =>
      rw [apply] at applied
      split at applied
      · obtain rfl := Except.ok.inj applied
        exact nodup
      · cases applied
  | renameTable old new =>
      rw [apply] at applied
      split at applied
      · cases applied
      · exact alterTable applied
  | addColumn table column => exact alterTable applied
  | dropColumn table column => exact alterTable applied
  | renameColumn table old new => exact alterTable applied
  | createIndex index =>
      rw [apply] at applied
      split at applied
      · cases applied
      · exact alterTable applied
  | dropIndex name table => exact alterTable applied

theorem replay_nodup (nodup : c.sequences.Nodup) (ran : c.replay statements = .ok c') :
    c'.sequences.Nodup := by
  induction statements generalizing c with
  | nil =>
      obtain rfl := Except.ok.inj ran
      exact nodup
  | cons s statements ih =>
      rw [replay_cons] at ran
      obtain ⟨between, applied, rest⟩ := Except.bind_eq_ok_iff.1 ran
      exact ih (apply_nodup nodup applied) rest

/-- Statements lead from one catalog, which has no sequence twice, to another, unless they are
refused because a name is taken.  They are not refused because something is missing. -/
def LeadsTo (c : Catalog) (statements : List Ddl) (c' : Catalog) : Prop :=
  c.sequences.Nodup →
    c.replay statements = .ok c' ∨ ∃ name, c.replay statements = .error (.clash name)

namespace LeadsTo

theorem nil (c : Catalog) : c.LeadsTo [] c :=
  fun _ => .inl rfl

theorem append (first : c.LeadsTo statements c') (second : c'.LeadsTo more c'') :
    c.LeadsTo (statements ++ more) c'' := by
  intro nodup
  rw [replay_append]
  rcases first nodup with ran | ⟨name, refused⟩
  · rw [ran]
    exact second (replay_nodup nodup ran)
  · rw [refused]
    exact .inr ⟨name, rfl⟩

theorem of_apply (applied : c.apply s = .ok c') : c.LeadsTo [s] c' := by
  intro _
  rw [replay_cons, applied]
  exact .inl rfl

theorem cons (applied : c.apply s = .ok c') (rest : c'.LeadsTo statements c'') :
    c.LeadsTo (s :: statements) c'' :=
  (of_apply applied).append rest

theorem of_clash {name : String} (refused : c.apply s = .error (.clash name)) :
    c.LeadsTo (s :: statements) c' := by
  intro _
  rw [replay_cons, refused]
  exact .inr ⟨name, rfl⟩

end LeadsTo

/-! ## Sequences -/

theorem leadsTo_createSequences (names : List String) (c : Catalog) :
    c.LeadsTo (names.map .createSequence) { c with sequences := c.sequences ++ names } := by
  induction names generalizing c with
  | nil =>
      rw [List.append_nil]
      exact .nil c
  | cons name names ih =>
      by_cases taken : name ∈ c.sequences
      · exact .of_clash (by rw [apply, if_pos taken])
      · have created : c.apply (.createSequence name) =
            .ok { c with sequences := c.sequences ++ [name] } := by rw [apply, if_neg taken]
        refine .cons created ?_
        have rest := ih { c with sequences := c.sequences ++ [name] }
        rwa [List.append_assoc, List.singleton_append] at rest

theorem leadsTo_dropSequences (names : List String) (tables : List CatalogTable) :
    LeadsTo ⟨tables, names⟩ (names.map .dropSequence) ⟨tables, []⟩ := by
  induction names with
  | nil => exact .nil _
  | cons name names ih =>
      have dropped : apply ⟨tables, name :: names⟩ (.dropSequence name) = .ok ⟨tables, names⟩ := by
        rw [apply, if_pos List.mem_cons_self, List.erase_cons_head]
      exact .cons dropped ih

/-! ## A catalog with one table -/

variable {t t' : CatalogTable} {sequences : List String}
variable {change : CatalogTable → Except Refusal CatalogTable}

theorem alterTable_single (changed : change t = .ok t') :
    alterTable ⟨[t], sequences⟩ t.name change = .ok ⟨[t'], sequences⟩ := by
  rw [alterTable, alter, if_pos rfl, changed]
  rfl

/-- A statement that changes the table. -/
theorem leadsTo_alterTable (does : apply ⟨[t], sequences⟩ s = alterTable ⟨[t], sequences⟩ t.name change)
    (changed : change t = .ok t') : LeadsTo ⟨[t], sequences⟩ [s] ⟨[t'], sequences⟩ :=
  .of_apply (does.trans (alterTable_single changed))

theorem leadsTo_createIndices (indices : List CatalogIndex) (t : CatalogTable)
    (sequences : List String) (own : ∀ i ∈ indices, i.table = t.name)
    (rooted : ∀ i ∈ indices, t.hasColumn i.column = true) :
    LeadsTo ⟨[t], sequences⟩ (indices.map .createIndex)
      ⟨[{ t with indices := t.indices ++ indices }], sequences⟩ := by
  induction indices generalizing t with
  | nil =>
      rw [List.append_nil]
      exact .nil _
  | cons index indices ih =>
      rw [List.forall_mem_cons] at own rooted
      cases taken : t.indices.any fun i => i.name = index.name with
      | true =>
          have refused : apply ⟨[t], sequences⟩ (.createIndex index) =
              .error (.clash index.name) := by simp [apply, taken]
          exact .of_clash refused
      | false =>
          have created : apply ⟨[t], sequences⟩ (.createIndex index) =
              .ok ⟨[{ t with indices := t.indices ++ [index] }], sequences⟩ := by
            have free : ([t].any fun t => t.indices.any fun i => i.name = index.name) = false := by
              simpa using taken
            rw [apply, free, own.1]
            exact alterTable_single (by rw [if_pos rooted.1])
          refine .cons created ?_
          have rest := ih { t with indices := t.indices ++ [index] } own.2 rooted.2
          rwa [List.append_assoc, List.singleton_append] at rest

end Catalog

end RowQuery
