import RowQuery.CommandLine
import RowQuery.Proofs.Schema.GeneratedName

/-!
# Tables of schema files

The tables of a file are made in two passes: the first one builds each table with its columns and
indices, the second one adds the references.  A reference is looked up by names of tables and keys
of columns.  References leave both as they are, so that it does not matter which tables have theirs
already.  The names of the tables are not compared before a schema takes the tables in.
-/

namespace RowQuery

open RowQuery.Table

variable {d : Dialect} {t t' : Table} {e : TableEntry}

/-- The reference as the table has it. -/
def ReferenceEntry.reference (r : ReferenceEntry) : Reference where
  near := r.column
  farTable := r.table
  far := r.farColumn

/-- The table has what the entry declares, in its order, and nothing else. -/
structure TableEntry.Describes (d : Dialect) (e : TableEntry) (t : Table) : Prop where
  name : t.name = e.name
  columns : List.Forall₂ (fun c column => ∃ spec, c.spec = .ok spec ∧
    spec.build e.name d = .ok column) e.columns t.columns
  indices : t.indices = e.indices.map fun i => .onColumn d e.name i.column i.unique
  references : t.references = e.references.map ReferenceEntry.reference

/-! ## Tables on their own -/

namespace TableEntry

/-- The table is a draft that has what was read of an entry. -/
def Drafts (d : Dialect) (e : TableEntry) (t : Table) : Prop :=
  e.Describes d t ∧ ∃ declared, t.Glued d declared

theorem drafts_new (name : String) : Drafts d ⟨name, [], [], []⟩ (Table.new d name) :=
  ⟨⟨rfl, .nil, rfl, rfl⟩, id, .new d name id⟩

/-- Columns of files are called by their keys. -/
theorem Describes.named_by_key (describes : e.Describes d t) {column : Column}
    (member : column ∈ t.columns) : column.name = column.key := by
  obtain ⟨c, -, spec, declared, built⟩ := describes.columns.flip.exists_of_mem member
  obtain ⟨default, -, ended⟩ := Except.bind_eq_ok_iff.1 declared
  obtain rfl := Except.ok.inj ended
  obtain ⟨key, name, -⟩ := build_eq_ok built
  rw [name, key]
  rfl

theorem Drafts.define (drafts : e.Drafts d t) (unindexed : d.indexesKeys = false) {c : ColumnEntry}
    {spec : ColumnSpec} (declared : c.spec = .ok spec) (defined : t.define d spec = .ok t') :
    Drafts d { e with columns := e.columns ++ [c] } t' := by
  obtain ⟨describes, names, glued⟩ := drafts
  obtain ⟨column, built, rfl, freshKey, freshName⟩ := define_eq_ok defined
  have glued := glued.withColumn built freshKey freshName
  rw [withColumn_unindexed unindexed] at glued ⊢
  rw [describes.name] at built
  have last := List.Forall₂.cons (R := fun c column => ∃ spec, ColumnEntry.spec c = .ok spec ∧
    spec.build e.name d = .ok column) ⟨spec, declared, built⟩ .nil
  exact ⟨⟨describes.name, List.rel_append describes.columns last, describes.indices,
    describes.references⟩, _, glued⟩

theorem Drafts.defineIndex (drafts : e.Drafts d t) {i : IndexEntry}
    (defined : t.defineIndex d i.column i.unique = .ok t') :
    Drafts d { e with indices := e.indices ++ [i] } t' := by
  obtain ⟨describes, names, glued⟩ := drafts
  obtain ⟨_, -, rest⟩ := Except.bind_eq_ok_iff.1 defined
  obtain ⟨index, made, ended⟩ := Except.bind_eq_ok_iff.1 rest
  obtain rfl := Except.ok.inj ended
  obtain ⟨column, found, rfl, fresh⟩ := newIndex_eq_ok made
  have member := mem_of_column? found
  have name : column.name = i.column := by
    rw [describes.named_by_key member, key_of_column? found]
  refine ⟨⟨describes.name, describes.columns, ?_, describes.references⟩, names,
    glued.withIndex member fresh⟩
  rw [withIndex, describes.indices, describes.name, name, List.map_append, List.map_singleton]

theorem Drafts.columns (unindexed : d.indexesKeys = false) {columns : List ColumnEntry}
    (drafts : e.Drafts d t) (built : columns.foldlM (fun t column => do
      let spec ← column.spec
      t.define d spec) t = .ok t') :
    Drafts d { e with columns := e.columns ++ columns } t' := by
  induction columns generalizing e t with
  | nil =>
      obtain rfl := Except.ok.inj built
      rwa [List.append_nil]
  | cons c columns ih =>
      rw [List.foldlM_cons] at built
      obtain ⟨between, first, rest⟩ := Except.bind_eq_ok_iff.1 built
      obtain ⟨spec, declared, defined⟩ := Except.bind_eq_ok_iff.1 first
      have later := ih (drafts.define unindexed declared defined) rest
      rwa [List.append_assoc] at later

theorem Drafts.indices {indices : List IndexEntry} (drafts : e.Drafts d t)
    (built : indices.foldlM (fun t index => t.defineIndex d index.column index.unique) t =
      .ok t') : Drafts d { e with indices := e.indices ++ indices } t' := by
  induction indices generalizing e t with
  | nil =>
      obtain rfl := Except.ok.inj built
      rwa [List.append_nil]
  | cons i indices ih =>
      rw [List.foldlM_cons] at built
      obtain ⟨between, first, rest⟩ := Except.bind_eq_ok_iff.1 built
      have later := ih (drafts.defineIndex first) rest
      rwa [List.append_assoc] at later

/-- A table that is built has everything but its references. -/
theorem drafts_of_build (unindexed : d.indexesKeys = false) (built : e.build d = .ok t) :
    Drafts d { e with references := [] } t := by
  obtain ⟨columned, first, second⟩ := Except.bind_eq_ok_iff.1 built
  exact ((drafts_new e.name).columns unindexed first).indices second

end TableEntry

/-! ## References -/

/-- The column that the reference leads to, in the first table of its name. -/
def ReferenceEntry.target? (r : ReferenceEntry) (tables : List Table) : Option Column :=
  (tables.find? fun t => t.name = r.table).bind fun far => far.column? r.farColumn

/-- The reference leads from a column of the near table to a column of some table. -/
def ReferenceEntry.Resolves (r : ReferenceEntry) (tables : List Table) (near : Table) : Prop :=
  (near.column? r.column).isSome ∧ (r.target? tables).isSome

/-- The table with references behind those it has. -/
def Table.refer (t : Table) (references : List ReferenceEntry) : Table :=
  { t with references := t.references ++ references.map ReferenceEntry.reference }

@[simp]
theorem Table.name_refer (references : List ReferenceEntry) : (t.refer references).name = t.name :=
  rfl

theorem TableEntry.Describes.refer (describes : e.Describes d t)
    (references : List ReferenceEntry) :
    { e with references := e.references ++ references }.Describes d (t.refer references) where
  name := describes.name
  columns := describes.columns
  indices := describes.indices
  references := by rw [Table.refer, describes.references, List.map_append]

namespace SchemaFile

variable {f : SchemaFile} {front back tables : List Table}

/-- References do not matter for what references lead to. -/
theorem target?_refer (r : ReferenceEntry) (references : List ReferenceEntry) :
    r.target? (front ++ t.refer references :: back) = r.target? (front ++ t :: back) := by
  unfold ReferenceEntry.target?
  rw [List.find?_append, List.find?_append]
  cases front.find? fun t => t.name = r.table with
  | some far => rfl
  | none =>
      by_cases named : t.name = r.table
      · rw [List.find?_cons_of_pos (by simp [named]), List.find?_cons_of_pos (by simp [named])]
        rfl
      · rw [List.find?_cons_of_neg (by simp [named]), List.find?_cons_of_neg (by simp [named])]

theorem addReference_eq_ok_iff {r : ReferenceEntry} :
    addReference front.length (front ++ t :: back) r = .ok tables ↔
      r.Resolves (front ++ t :: back) t ∧ tables = front ++ t.refer [r] :: back := by
  have place : (front ++ t :: back)[front.length]? = some t := by simp
  unfold addReference ReferenceEntry.Resolves ReferenceEntry.target?
  rw [place]
  cases found : (front ++ t :: back).find? fun t => t.name = r.table with
  | none => simp
  | some far =>
      have name : far.name = r.table := by simpa using List.find?_some found
      dsimp only [Option.bind_some]
      constructor
      · intro added
        obtain ⟨near, referred, ended⟩ := Except.bind_eq_ok_iff.1 added
        obtain ⟨column, nearColumn, rest⟩ := Except.bind_eq_ok_iff.1 referred
        obtain ⟨target, farColumn, made⟩ := Except.bind_eq_ok_iff.1 rest
        obtain rfl := Except.ok.inj made
        obtain rfl := Except.ok.inj ended
        refine ⟨⟨by simp [require_eq_ok nearColumn], by simp [require_eq_ok farColumn]⟩, ?_⟩
        simp [refer, ReferenceEntry.reference, name]
      · rintro ⟨⟨nearKnown, farKnown⟩, rfl⟩
        obtain ⟨column, nearColumn⟩ := Option.isSome_iff_exists.1 nearKnown
        obtain ⟨target, farColumn⟩ := Option.isSome_iff_exists.1 farKnown
        refine Except.bind_eq_ok_iff.2 ⟨t.refer [r], ?_, by simp⟩
        rw [Table.reference, require_eq_ok_iff.2 nearColumn, require_eq_ok_iff.2 farColumn, name]
        rfl

theorem addReferences_eq_ok_iff {references : List ReferenceEntry} :
    references.foldlM (addReference front.length) (front ++ t :: back) = .ok tables ↔
      (∀ r ∈ references, r.Resolves (front ++ t :: back) t) ∧
        tables = front ++ t.refer references :: back := by
  induction references generalizing t with
  | nil => simp [refer, pure, Except.pure, eq_comm]
  | cons r references ih =>
      have later (r' : ReferenceEntry) : r'.Resolves (front ++ t.refer [r] :: back) (t.refer [r]) ↔
          r'.Resolves (front ++ t :: back) t := by
        rw [ReferenceEntry.Resolves, target?_refer]
        rfl
      have whole : (t.refer [r]).refer references = t.refer (r :: references) := by
        simp [refer]
      rw [List.foldlM_cons, Except.bind_eq_ok_iff, List.forall_mem_cons, and_assoc]
      constructor
      · rintro ⟨between, first, rest⟩
        obtain ⟨resolves, rfl⟩ := addReference_eq_ok_iff.1 first
        obtain ⟨others, same⟩ := ih.1 rest
        exact ⟨resolves, fun r' member => (later r').1 (others r' member), whole ▸ same⟩
      · rintro ⟨resolves, others, same⟩
        refine ⟨_, addReference_eq_ok_iff.2 ⟨resolves, rfl⟩, ih.2 ⟨?_, whole ▸ same⟩⟩
        exact fun r' member => (later r').2 (others r' member)

/-- The second pass goes through the tables from the front. -/
theorem addAll_eq_ok_iff (front : List Table) {entries : List TableEntry}
    (count : entries.length = back.length) :
    (entries.zipIdx front.length).foldlM (fun tables (entry, position) =>
      entry.references.foldlM (addReference position) tables) (front ++ back) = .ok tables ↔
      List.Forall₂ (fun t (e : TableEntry) => ∀ r ∈ e.references, r.Resolves (front ++ back) t)
        back entries ∧
      tables = front ++ (back.zip entries).map fun (t, e) => t.refer e.references := by
  induction entries generalizing front back with
  | nil =>
      obtain rfl := List.length_eq_zero_iff.1 count.symm
      simp [pure, Except.pure, eq_comm]
  | cons e entries ih =>
      obtain ⟨t, back, rfl⟩ := List.exists_cons_of_length_eq_add_one count.symm
      have count : entries.length = back.length := by simpa using count
      have later (r : ReferenceEntry) (near : Table) :
          r.Resolves (front ++ t.refer e.references :: back) near ↔
            r.Resolves (front ++ t :: back) near := by
        rw [ReferenceEntry.Resolves, target?_refer]
        rfl
      have tail := ih (front ++ [t.refer e.references]) count
      simp only [List.length_append, List.length_singleton, List.append_assoc,
        List.singleton_append, later] at tail
      rw [List.zipIdx_cons, List.foldlM_cons, Except.bind_eq_ok_iff, List.forall₂_cons, and_assoc,
        List.zip_cons_cons, List.map_cons]
      constructor
      · rintro ⟨between, first, rest⟩
        obtain ⟨own, rfl⟩ := addReferences_eq_ok_iff.1 first
        exact ⟨own, tail.1 rest⟩
      · rintro ⟨own, others⟩
        exact ⟨_, addReferences_eq_ok_iff.2 ⟨own, rfl⟩, tail.2 others⟩

/-- The tables are those that the entries build, each with its references, if all of these lead
from a column to a column. -/
theorem toTables_eq_ok_iff :
    f.toTables d = .ok tables ↔
      ∃ built, List.Forall₂ (fun e t => TableEntry.build e d = .ok t) f.tables built ∧
        List.Forall₂ (fun t (e : TableEntry) => ∀ r ∈ e.references, r.Resolves built t)
          built f.tables ∧
        tables = (built.zip f.tables).map fun (t, e) => t.refer e.references := by
  rw [toTables, Except.bind_eq_ok_iff]
  refine exists_congr fun built => ?_
  rw [Except.mapM_eq_ok_iff]
  exact and_congr_right fun each => addAll_eq_ok_iff [] each.length_eq

section

variable (unindexed : d.indexesKeys = false) (made : f.toTables d = .ok tables)

include unindexed made

/-- References come to tables that have everything else. -/
theorem drafts_of_toTables :
    ∃ built, List.Forall₂ (fun t e => TableEntry.Drafts d { e with references := [] } t)
        built f.tables ∧
      List.Forall₂ (fun t (e : TableEntry) => ∀ r ∈ e.references, r.Resolves built t)
        built f.tables ∧
      tables = (built.zip f.tables).map fun (t, e) => t.refer e.references := by
  obtain ⟨built, each, resolved, same⟩ := toTables_eq_ok_iff.1 made
  refine ⟨built, List.Forall₂.flip ?_, resolved, same⟩
  exact each.imp fun e t made => TableEntry.drafts_of_build unindexed made

theorem describes_of_toTables :
    List.Forall₂ (fun t (e : TableEntry) => e.Describes d t) tables f.tables := by
  obtain ⟨built, drafts, -, rfl⟩ := drafts_of_toTables unindexed made
  exact drafts.map_zip fun t e draft => draft.1.refer e.references

theorem map_name_of_toTables : tables.map Table.name = f.tables.map TableEntry.name := by
  rw [← List.forall₂_eq_eq_eq, List.forall₂_map_left_iff, List.forall₂_map_right_iff]
  exact (describes_of_toTables unindexed made).imp fun t e describes => describes.name

/-- Nothing has two columns or indices of one name, and references lead to columns. -/
theorem consistent_of_toTables : ∀ t ∈ tables, (t.columns.map Column.key).Nodup ∧
    (t.columns.map Column.name).Nodup ∧ (t.indices.map Index.name).Nodup ∧
    ∀ r ∈ t.references, r.near ∈ t.columns.map Column.key ∧
      ∃ far ∈ tables, far.name = r.farTable ∧ r.far ∈ far.columns.map Column.key := by
  obtain ⟨built, drafts, resolved, rfl⟩ := drafts_of_toTables unindexed made
  intro t member
  obtain ⟨⟨t, e⟩, among, rfl⟩ := List.mem_map.1 member
  obtain ⟨describes, declared, glued⟩ := (List.forall₂_iff_zip.1 drafts).2 among
  refine ⟨glued.keys, glued.names, glued.distinct unindexed, fun r referred => ?_⟩
  rw [(describes.refer e.references).references] at referred
  obtain ⟨r, given, rfl⟩ := List.mem_map.1 referred
  obtain ⟨near, leads⟩ := (List.forall₂_iff_zip.1 resolved).2 among r given
  obtain ⟨column, nearColumn⟩ := Option.isSome_iff_exists.1 near
  obtain ⟨column, target⟩ := Option.isSome_iff_exists.1 leads
  obtain ⟨far, found, farColumn⟩ := Option.bind_eq_some_iff.1 target
  have named : far.name = r.table := by simpa using List.find?_some found
  -- The table that was found has got its references since.
  have whole : (built.zip f.tables).map Prod.fst = built := List.map_fst_zip drafts.length_eq.le
  have present := List.mem_of_find?_eq_some found
  rw [← whole] at present
  obtain ⟨⟨far, farEntry⟩, there, rfl⟩ := List.mem_map.1 present
  exact ⟨mem_keys nearColumn, far.refer farEntry.references,
    List.mem_map.2 ⟨(far, farEntry), there, rfl⟩, named, mem_keys farColumn⟩

end

end SchemaFile

/-! ## Schemas -/

namespace Schema

/-- A schema refuses a table under a name that it has, also if it has it from the same tables. -/
theorem fill_run_of_taken (schema : Schema) {tables : List Table}
    (taken : ¬((tables.map Table.name).Nodup ∧
      ∀ t ∈ tables, schema.tables.has t.name = false)) :
    ∃ name left, (fill tables).run schema = (.error (.duplicate name), left) := by
  induction tables generalizing schema with
  | nil => exact absurd ⟨List.nodup_nil, by simp⟩ taken
  | cons t tables ih =>
      change ∃ name left, (addTable t >>= fun _ => fill tables).run schema = _
      cases known : schema.tables.has t.name || schema.views.has t.name with
      | true =>
          rw [ExceptT.run_bind_eq, addTable_run, if_pos known]
          exact ⟨t.name, schema, rfl⟩
      | false =>
          rw [ExceptT.run_bind_eq, addTable_run, if_neg (by rw [known]; exact Bool.false_ne_true)]
          rw [Bool.or_eq_false_iff] at known
          refine ih _ fun ⟨names, unused⟩ => taken ⟨?_, ?_⟩
          · refine List.nodup_cons.2 ⟨fun twin => ?_, names⟩
            obtain ⟨t', member, same⟩ := List.mem_map.1 twin
            have has := unused t' member
            rw [same, Keyed.has, Keyed.get?_put_self] at has
            cases has
          · refine List.forall_mem_cons.2 ⟨known.1, fun t' member => ?_⟩
            have has := unused t' member
            rw [Keyed.has, Keyed.get?_put] at has
            split at has
            · cases has
            · exact has

end Schema

/-- The built-in dialects leave the indices of keys to the database. -/
theorem BuiltinDialect.unindexed (d : BuiltinDialect) : d.dialect.indexesKeys = false := by
  cases d <;> rfl

namespace SchemaFile

open Schema

variable {f : SchemaFile} {tables : List Table}

/-- There is no script for a file with two tables of one name. -/
theorem creationScript_of_twins {d : BuiltinDialect} (settings : Settings)
    (made : f.toTables d.dialect = .ok tables) (twins : ¬(f.tables.map TableEntry.name).Nodup) :
    ∃ name, f.creationScript settings d = .error (.duplicate name) := by
  obtain ⟨name, left, ran⟩ := fill_run_of_taken { database := settings.database d } fun taken =>
    twins (map_name_of_toTables d.unindexed made ▸ taken.1)
  refine ⟨name, ?_⟩
  rw [creationScript, made]
  change (((fill tables >>= fun _ => do
    createAll
    Session.onDatabase Database.takeRecord).run { database := settings.database d }).1) = _
  rw [ExceptT.run_bind_eq, ran]

/-- Whatever the tables of a file are and in which order it has them: if they can be made, they are
those that it declares, in its order; keys and names of columns and names of indices are told apart
within each table; and every reference leads from a column of its table to a column of one of the
tables.  Two tables can have one name, though.  A new schema takes the tables in if their names are
told apart, and refuses one of them otherwise. -/
theorem schema_file_is_consistent (d : BuiltinDialect) (made : f.toTables d.dialect = .ok tables) :
    List.Forall₂ (fun t (e : TableEntry) => e.Describes d.dialect t) tables f.tables ∧
    (∀ t ∈ tables, (t.columns.map Column.key).Nodup ∧ (t.columns.map Column.name).Nodup ∧
      (t.indices.map Index.name).Nodup ∧
      ∀ r ∈ t.references, r.near ∈ t.columns.map Column.key ∧
        ∃ far ∈ tables, far.name = r.farTable ∧ r.far ∈ far.columns.map Column.key) ∧
    ∀ db : Database,
      ((f.tables.map TableEntry.name).Nodup → ∃ filled : Keyed Table,
        (fill tables).run { database := db } = (.ok (), { database := db, tables := filled }) ∧
        ∀ t ∈ tables, filled.get? t.name = some t) ∧
      (¬(f.tables.map TableEntry.name).Nodup → ∃ name left,
        (fill tables).run { database := db } = (.error (.duplicate name), left)) := by
  have unindexed := d.unindexed
  have names := map_name_of_toTables unindexed made
  refine ⟨describes_of_toTables unindexed made, consistent_of_toTables unindexed made,
    fun db => ⟨fun distinct => ?_, fun twins => ?_⟩⟩
  · obtain ⟨filled, ran, ordered, same⟩ :=
      fill_run { database := db } .nil (names ▸ distinct) fun t _ => ⟨rfl, rfl⟩
    refine ⟨filled, ran, fun t member => ordered.get?_of_mem (same.mem_iff.2 ?_)⟩
    exact List.mem_append_left _ (List.mem_map_of_mem member)
  · exact fill_run_of_taken _ fun taken => twins (names ▸ taken.1)

section Zoos

/-- A column of integers. -/
def numbers (name : String) : ColumnEntry where
  name := name
  kind := .int
  request := {}
  isKey := false
  isGenerated := false
  default := none

/-- Animals with their mothers and zoos, which are declared behind them. -/
def animals : SchemaFile where
  tables := [
    { name := "animals", columns := [numbers "id", numbers "mother", numbers "zoo"]
      indices := [⟨"zoo", false⟩]
      references := [⟨"mother", "animals", "id"⟩, ⟨"zoo", "zoos", "id"⟩] },
    { name := "zoos", columns := [numbers "id"], indices := [⟨"id", true⟩], references := [] }]

theorem animals_are_consistent :
    ∃ tables, animals.toTables BuiltinDialect.postgres.dialect = .ok tables ∧
      tables.map (fun t => (t.name, t.references)) =
        [("animals", [⟨"mother", "animals", "id"⟩, ⟨"zoo", "zoos", "id"⟩]), ("zoos", [])] ∧
      (∀ t ∈ tables, ∀ r ∈ t.references, r.near ∈ t.columns.map Column.key ∧
        ∃ far ∈ tables, far.name = r.farTable ∧ r.far ∈ far.columns.map Column.key) ∧
      ∀ db : Database, ∃ filled : Keyed Table,
        (fill tables).run { database := db } = (.ok (), { database := db, tables := filled }) ∧
          ∀ t ∈ tables, filled.get? t.name = some t := by
  have known : (animals.toTables BuiltinDialect.postgres.dialect).map
      (fun tables => tables.map fun t => (t.name, t.references)) = .ok
        [("animals", [⟨"mother", "animals", "id"⟩, ⟨"zoo", "zoos", "id"⟩]), ("zoos", [])] := by
    decide +kernel
  obtain ⟨tables, made, outline⟩ := Except.map_eq_ok_iff.1 known
  obtain ⟨-, consistent, taking⟩ := schema_file_is_consistent .postgres made
  exact ⟨tables, made, outline, fun t member => (consistent t member).2.2.2,
    fun db => (taking db).1 (by decide)⟩

/-- Two tables without columns. -/
def twins : SchemaFile where
  tables := [⟨"t", [], [], []⟩, ⟨"t", [], [], []⟩]

theorem twins_have_one_name :
    ∃ tables, twins.toTables BuiltinDialect.ansi.dialect = .ok tables ∧
      ¬(tables.map Table.name).Nodup :=
  ⟨_, rfl, by decide⟩

end Zoos

end SchemaFile

end RowQuery
