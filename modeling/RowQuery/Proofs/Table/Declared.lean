import Mathlib.Data.List.Nodup
import RowQuery.Proofs.Steps
import RowQuery.Schema.Discovery

/-!
# Declared tables

The columns of a table have names that are quoted in the way of its dialect, and no two of
them share a key or a name.  Tables begin without columns, and each change of the columns
keeps this.
-/

namespace RowQuery.Table

/-- The columns of a table are told apart by their keys and by their names. -/
structure Declared (d : Dialect) (t : Table) : Prop where
  quoted : ∀ column ∈ t.columns, column.quotedName = d.quoteName column.name
  keys : (t.columns.map Column.key).Nodup
  names : (t.columns.map Column.name).Nodup

variable {d : Dialect} {t t' : Table}

theorem declared_new (d : Dialect) (name : String) : (new d name).Declared d :=
  ⟨by simp [new], List.nodup_nil, List.nodup_nil⟩

theorem key_of_column? {key : String} {column : Column} (found : t.column? key = some column) :
    column.key = key := by
  simpa using List.find?_some found

theorem mem_of_column? {key : String} {column : Column} (found : t.column? key = some column) :
    column ∈ t.columns :=
  List.mem_of_find?_eq_some found

theorem lookup_eq_ok_iff {key : String} {column : Column} :
    t.lookup key = .ok column ↔ t.column? key = some column := by
  unfold lookup
  split
  · rename_i found
    rw [found, Except.ok.injEq, Option.some.injEq]
  · rename_i absent
    rw [absent]
    exact iff_of_false nofun nofun

theorem mem_of_lookup {key : String} {column : Column} (found : t.lookup key = .ok column) :
    column ∈ t.columns :=
  mem_of_column? (lookup_eq_ok_iff.1 found)

theorem mem_keys {key : String} {column : Column} (found : t.column? key = some column) :
    key ∈ t.columns.map Column.key :=
  List.mem_map.2 ⟨column, mem_of_column? found, key_of_column? found⟩

theorem not_mem_keys {key : String} (absent : t.column? key = none) :
    key ∉ t.columns.map Column.key := by
  intro member
  obtain ⟨column, member, same⟩ := List.mem_map.1 member
  simpa [same] using List.find?_eq_none.1 absent column member

/-- A built column has what its declaration says, with a resolved type. -/
theorem build_eq {s : ColumnSpec} {table : String} {column : Column}
    (built : s.build table d = .ok column) :
    ∃ type, d.types.resolve s.kind s.request = .ok type ∧ column =
      { key := s.key, name := s.columnName, quotedName := d.quoteName s.columnName,
        kind := s.kind, type, default := s.givenDefault, isKey := s.isKey,
        isGenerated := s.isGenerated,
        sequence := if s.isGenerated then d.sequenceName table s.columnName else none } := by
  obtain ⟨_, -, rest⟩ := Except.bind_eq_ok_iff.1 built
  obtain ⟨type, resolved, rest⟩ := Except.bind_eq_ok_iff.1 rest
  refine ⟨type, resolved, ?_⟩
  dsimp only at rest
  cases given : s.givenDefault with
  | none =>
      simp only [given] at rest
      exact (Except.ok.inj rest).symm
  | some value =>
      simp only [given] at rest
      obtain ⟨_, -, ended⟩ := Except.bind_eq_ok_iff.1 rest
      exact (Except.ok.inj ended).symm

theorem build_eq_ok {s : ColumnSpec} {table : String} {column : Column}
    (built : s.build table d = .ok column) :
    column.key = s.key ∧ column.name = s.columnName ∧
      column.quotedName = d.quoteName column.name := by
  obtain ⟨type, -, rfl⟩ := build_eq built
  exact ⟨rfl, rfl, rfl⟩

/-- The indices that come with a column. -/
def keyIndices (d : Dialect) (table : String) (column : Column) : List Index :=
  if column.isKey && d.indexesKeys then [Index.onColumn d table column.name true] else []

/-- The table with one more column and its indices. -/
def withColumn (t : Table) (d : Dialect) (column : Column) : Table :=
  { t with
    columns := t.columns ++ [column]
    indices := t.indices ++ keyIndices d t.name column }

/-- Where keys need no index, a column comes without one. -/
theorem withColumn_unindexed {column : Column} (unindexed : d.indexesKeys = false) :
    t.withColumn d column = { t with columns := t.columns ++ [column] } := by
  rw [withColumn, keyIndices, unindexed, Bool.and_false, if_neg Bool.false_ne_true,
    List.append_nil]

/-- A new column differs from the others in its key and its name. -/
theorem addColumn_eq_ok {s : ColumnSpec} (added : t.addColumn d s = .ok t') :
    ∃ column, s.build t.name d = .ok column ∧ t' = t.withColumn d column ∧
      column.key ∉ t.columns.map Column.key ∧ column.name ∉ t.columns.map Column.name := by
  unfold addColumn at added
  cases absent : t.column? s.key with
  | some column =>
      simp only [absent, Option.isSome_some, if_true] at added
      cases added
  | none =>
      simp only [absent, Option.isSome_none, Bool.false_eq_true, if_false] at added
      obtain ⟨column, built, rest⟩ := Except.bind_eq_ok_iff.1 added
      obtain ⟨key, -, -⟩ := build_eq_ok built
      cases clash : t.columns.any fun c => c.name = column.name with
      | true =>
          simp only [clash, if_true] at rest
          cases rest
      | false =>
          simp only [clash, Bool.false_eq_true, if_false] at rest
          obtain rfl := Except.ok.inj rest
          refine ⟨column, built, ?_, key ▸ not_mem_keys absent, fun member => ?_⟩
          · unfold withColumn keyIndices
            split <;> simp
          · obtain ⟨other, member, same⟩ := List.mem_map.1 member
            have different := List.any_eq_false.1 clash other member
            simp [same] at different

theorem define_eq_ok {s : ColumnSpec} (defined : t.define d s = .ok t') :
    ∃ column, s.build t.name d = .ok column ∧ t' = t.withColumn d column ∧
      column.key ∉ t.columns.map Column.key ∧ column.name ∉ t.columns.map Column.name := by
  obtain ⟨_, -, rest⟩ := Except.bind_eq_ok_iff.1 defined
  split at rest
  · cases rest
  · exact addColumn_eq_ok rest

/-- A changed column stands in the place of the old one. -/
theorem map_updateColumn {α : Type} (f : Column → α) {change : Column → Column}
    (same : ∀ column, f (change column) = f column) (key : String) (columns : List Column) :
    (updateColumn change key columns).map f = columns.map f := by
  induction columns with
  | nil => rfl
  | cons column columns ih =>
      rw [updateColumn]
      split
      · rw [List.map_cons, same, List.map_cons]
      · rw [List.map_cons, ih, List.map_cons]

theorem forall_updateColumn {P : Column → Prop} {change : Column → Column} {key : String}
    {columns : List Column} (holds : ∀ column ∈ columns, P column)
    (changed : ∀ column ∈ columns, P (change column)) :
    ∀ column ∈ updateColumn change key columns, P column := by
  induction columns with
  | nil => exact holds
  | cons column columns ih =>
      rw [List.forall_mem_cons] at holds changed
      rw [updateColumn]
      split
      · exact List.forall_mem_cons.2 ⟨changed.1, holds.2⟩
      · exact List.forall_mem_cons.2 ⟨holds.1, ih holds.2 changed.2⟩

theorem nodup_updateColumn {change : Column → Column} {key name : String} {columns : List Column}
    (renames : ∀ column, (change column).name = name) (fresh : name ∉ columns.map Column.name)
    (names : (columns.map Column.name).Nodup) :
    ((updateColumn change key columns).map Column.name).Nodup := by
  induction columns with
  | nil => exact names
  | cons column columns ih =>
      rw [List.map_cons, List.mem_cons, not_or] at fresh
      rw [List.map_cons, List.nodup_cons] at names
      rw [updateColumn]
      split
      · rw [List.map_cons, renames, List.nodup_cons]
        exact ⟨fresh.2, names.2⟩
      · rw [List.map_cons, List.nodup_cons]
        refine ⟨fun member => ?_, ih fresh.2 names.2⟩
        obtain ⟨other, member, same⟩ := List.mem_map.1 member
        have known : ∀ other ∈ updateColumn change key columns,
            other.name = name ∨ other.name ∈ columns.map Column.name :=
          forall_updateColumn (fun _ member => .inr (List.mem_map_of_mem member))
            fun other _ => .inl (renames other)
        rcases known other member with taken | present
        · exact fresh.1 (taken.symm.trans same)
        · exact names.1 (same ▸ present)

/-- The catalog completes a column without renaming it. -/
theorem complete_spec (found : Discovery.CatalogColumn) (column : Column) :
    (found.complete column).key = column.key ∧ (found.complete column).name = column.name ∧
      (found.complete column).quotedName = column.quotedName := by
  unfold Discovery.CatalogColumn.complete
  repeat' split
  all_goals exact ⟨rfl, rfl, rfl⟩

namespace Declared

theorem withColumn {s : ColumnSpec} {column : Column} (declared : t.Declared d)
    (built : s.build t.name d = .ok column) (freshKey : column.key ∉ t.columns.map Column.key)
    (freshName : column.name ∉ t.columns.map Column.name) : (t.withColumn d column).Declared d := by
  refine ⟨?_, ?_, ?_⟩
  · intro other member
    rcases List.mem_append.1 member with member | member
    · exact declared.quoted other member
    · rw [List.mem_singleton.1 member]
      exact (build_eq_ok built).2.2
  · rw [Table.withColumn, List.map_append, List.map_singleton, ← List.concat_eq_append]
    exact declared.keys.concat freshKey
  · rw [Table.withColumn, List.map_append, List.map_singleton, ← List.concat_eq_append]
    exact declared.names.concat freshName

theorem addColumn {s : ColumnSpec} (declared : t.Declared d) (added : t.addColumn d s = .ok t') :
    t'.Declared d := by
  obtain ⟨column, built, rfl, freshKey, freshName⟩ := addColumn_eq_ok added
  exact declared.withColumn built freshKey freshName

theorem define {s : ColumnSpec} (declared : t.Declared d) (defined : t.define d s = .ok t') :
    t'.Declared d := by
  obtain ⟨column, built, rfl, freshKey, freshName⟩ := define_eq_ok defined
  exact declared.withColumn built freshKey freshName

/-- A column from the catalog. -/
theorem takeColumn {row : List Cell} (declared : t.Declared d)
    (taken : Discovery.takeColumn d t row = .ok t') : t'.Declared d := by
  obtain ⟨column, -, rest⟩ := Except.bind_eq_ok_iff.1 taken
  obtain ⟨t, defined, ended⟩ := Except.bind_eq_ok_iff.1 rest
  obtain rfl := Except.ok.inj ended
  obtain ⟨quoted, keys, names⟩ := declared.define defined
  have kept := complete_spec column
  refine ⟨?_, ?_, ?_⟩
  · refine forall_updateColumn quoted fun c member => ?_
    rw [(kept c).2.2, (kept c).2.1, quoted c member]
  · rwa [map_updateColumn Column.key fun c => (kept c).1]
  · rwa [map_updateColumn Column.name fun c => (kept c).2.1]

theorem forgetColumn (declared : t.Declared d) (key : String) :
    (t.forgetColumn key).Declared d := by
  unfold Table.forgetColumn
  split
  · exact declared
  · have sub : (t.columns.eraseP fun c => c.key = key).Sublist t.columns := List.eraseP_sublist
    exact ⟨fun column member => declared.quoted column (sub.subset member),
      declared.keys.sublist (sub.map _), declared.names.sublist (sub.map _)⟩

/-- A column takes a name that no other column has. -/
theorem columnRenamed (declared : t.Declared d) (column : Column) {name : String}
    (fresh : name ∉ t.columns.map Column.name) : (t.columnRenamed d column name).Declared d := by
  refine ⟨?_, ?_, nodup_updateColumn (fun _ => rfl) fresh declared.names⟩
  · exact forall_updateColumn declared.quoted fun _ _ => rfl
  · have kept : (t.columnRenamed d column name).columns.map Column.key =
        t.columns.map Column.key := by
      refine map_updateColumn Column.key ?_ _ _
      exact fun _ => rfl
    rw [kept]
    exact declared.keys

end Declared

end RowQuery.Table
