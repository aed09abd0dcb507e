import RowQuery.Proofs.Database.Refilter
import RowQuery.Proofs.Table.Draft
import RowQuery.View

/-!
# Reserved names

A dialect keeps some names of columns for itself, in any case of their letters.  No column is
declared under one of them: not in a draft, not in a table of the database, not in a view and not
from the catalog.  Renaming a column, though, only asks that no other column of the table has the
new name.  So a column bears a reserved name exactly if the last thing that happened to its name
was that it was renamed to this one.
-/

namespace RowQuery

/-- A name that the dialect keeps for itself. -/
def Dialect.Reserves (d : Dialect) (name : String) : Prop :=
  ∃ reserved ∈ d.reservedNames, Text.sameIgnoringCase reserved name = true

instance (d : Dialect) (name : String) : Decidable (d.Reserves name) :=
  inferInstanceAs (Decidable (∃ reserved ∈ d.reservedNames, _))

namespace Table

variable {d : Dialect} {t : Table} {renamed : String → Option String}

/-! ## Names of columns -/

theorem not_reserves_of_build {s : ColumnSpec} {table : String} {column : Column}
    (built : s.build table d = .ok column) : ¬ d.Reserves column.name := by
  obtain ⟨_, checked, -⟩ := Except.bind_eq_ok_iff.1 built
  rw [(build_eq_ok built).2.1]
  rintro ⟨reserved, member, same⟩
  have refused : (d.reservedNames.any fun name =>
      Text.sameIgnoringCase name s.columnName) = true := List.any_eq_true.2 ⟨reserved, member, same⟩
  rw [ColumnSpec.check, if_pos refused] at checked
  cases checked

/-- Of columns with different keys only the one of the key is changed. -/
theorem of_mem_updateColumn {change : Column → Column} {key : String} {columns : List Column}
    (keys : (columns.map Column.key).Nodup) {c : Column}
    (member : c ∈ updateColumn change key columns) :
    (c ∈ columns ∧ c.key ≠ key) ∨ ∃ old ∈ columns, old.key = key ∧ c = change old := by
  induction columns with
  | nil => cases member
  | cons first columns ih =>
      rw [List.map_cons, List.nodup_cons] at keys
      rw [updateColumn] at member
      by_cases here : first.key = key
      · rw [if_pos here] at member
        rcases List.mem_cons.1 member with rfl | later
        · exact .inr ⟨first, List.mem_cons_self, here, rfl⟩
        · refine .inl ⟨List.mem_cons_of_mem _ later, fun same => keys.1 ?_⟩
          exact here ▸ same ▸ List.mem_map_of_mem later
      · rw [if_neg here] at member
        rcases List.mem_cons.1 member with rfl | later
        · exact .inl ⟨List.mem_cons_self, here⟩
        · rcases ih keys.2 later with ⟨known, other⟩ | ⟨old, known, found, changed⟩
          · exact .inl ⟨List.mem_cons_of_mem _ known, other⟩
          · exact .inr ⟨old, List.mem_cons_of_mem _ known, found, changed⟩

/-! ## Where a name comes from -/

/-- The name that the column of each key was renamed to since it was declared, after an operation
that succeeds. -/
def Operation.renames (renamed : String → Option String) : Operation → String → Option String
  | .define spec | .extend spec => Function.update renamed spec.key none
  | .renameColumn key name => Function.update renamed key (some name)
  | _ => renamed

/-- A table that a program can have in a dialect, and the name that the column of each key was
last renamed to, if it was renamed since it was declared. -/
inductive Titled (d : Dialect) : Table → (String → Option String) → Prop
  | new (name : String) : Titled d (new d name) fun _ => none
  | discover {name : String} {db db' : Database} {found : Table}
      (same : db.workspace.dialect = d)
      (discovered : (Discovery.discoverTable name).run db = (.ok found, db')) :
      Titled d found fun _ => none
  | operate {t : Table} {renamed : String → Option String} (before : Titled d t renamed)
      (operation : Operation) {db : Database} (same : db.workspace.dialect = d) :
      Titled d (operation.alteration.run (t, db)).2.1
        (if (operation.alteration.run (t, db)).1.isOk then operation.renames renamed else renamed)
  | retarget {t : Table} {renamed : String → Option String} (before : Titled d t renamed)
      (old new : String) : Titled d (t.retargeted old new) renamed

theorem Titled.reachedIn (titled : t.Titled d renamed) : t.ReachedIn d := by
  induction titled with
  | new name => exact .new name
  | discover same discovered => exact .discover same discovered
  | operate _ operation same ih => exact ih.operate operation same
  | retarget _ old new ih => exact ih.retarget old new

/-- A column has the name that it was last renamed to; one that was not renamed has no reserved
name. -/
def Sourced (d : Dialect) (t : Table) (renamed : String → Option String) : Prop :=
  ∀ c ∈ t.columns, (∀ name, renamed c.key = some name → c.name = name) ∧
    (renamed c.key = none → ¬ d.Reserves c.name)

namespace Sourced

theorem new (d : Dialect) (name : String) (renamed : String → Option String) :
    (Table.new d name).Sourced d renamed := by
  simp [Sourced, Table.new]

/-- A column is declared. -/
theorem withColumn (sourced : t.Sourced d renamed) {s : ColumnSpec} {column : Column}
    (built : s.build t.name d = .ok column) (freshKey : column.key ∉ t.columns.map Column.key) :
    (t.withColumn d column).Sourced d (Function.update renamed s.key none) := by
  have key : column.key = s.key := (build_eq_ok built).1
  intro c member
  rcases List.mem_append.1 member with old | new
  · have other : c.key ≠ s.key := fun same =>
      freshKey (key ▸ same ▸ List.mem_map_of_mem old)
    rw [Function.update_of_ne other]
    exact sourced c old
  · obtain rfl := List.mem_singleton.1 new
    rw [key, Function.update_self]
    exact ⟨nofun, fun _ => not_reserves_of_build built⟩

theorem columnRenamed (sourced : t.Sourced d renamed) (keys : (t.columns.map Column.key).Nodup)
    {key : String} {column : Column} (found : t.column? key = some column) (name : String) :
    (t.columnRenamed d column name).Sourced d (Function.update renamed key (some name)) := by
  intro c member
  rcases of_mem_updateColumn keys member with ⟨known, other⟩ | ⟨old, -, here, rfl⟩
  · rw [key_of_column? found] at other
    rw [Function.update_of_ne other]
    exact sourced c known
  · have named : old.key = key := here.trans (key_of_column? found)
    dsimp only
    rw [named, Function.update_self]
    exact ⟨fun other same => Option.some.inj same, nofun⟩

/-- A table keeps the names of the columns that it keeps. -/
theorem of_subset {t' : Table} (sourced : t.Sourced d renamed) (part : t'.columns ⊆ t.columns) :
    t'.Sourced d renamed :=
  fun c member => sourced c (part member)

/-- The step: every operation that does not refuse says where the names come from. -/
theorem plan (sourced : t.Sourced d renamed) (keys : (t.columns.map Column.key).Nodup)
    {operation : Operation} {plan : Plan} (planned : Planned d t operation plan) :
    plan.after.Sourced d (operation.renames renamed) := by
  cases planned with
  | create | drop | rename | addIndex | dropIndex | defineIndex | reference =>
      exact sourced.of_subset (List.Subset.refl _)
  | extend live built freshKey => exact sourced.withColumn built freshKey
  | define fresh built freshKey => exact sourced.withColumn built freshKey
  | renameColumn live found => exact sourced.columnRenamed keys found _
  | dropColumn live found =>
      unfold Table.forgetColumn
      rw [found]
      exact sourced.of_subset List.eraseP_subset

theorem takeColumns {rows : List (List Cell)} {t' : Table} (wellFormed : t.WellFormed d)
    (sourced : t.Sourced d fun _ => none)
    (taken : rows.foldlM (Discovery.takeColumn d) t = .ok t') :
    t'.Sourced d fun _ => none := by
  induction rows generalizing t with
  | nil =>
      obtain rfl := Except.ok.inj taken
      exact sourced
  | cons row rows ih =>
      rw [List.foldlM_cons] at taken
      obtain ⟨between, first, rest⟩ := Except.bind_eq_ok_iff.1 taken
      have extended := (wellFormed.takeColumn first).1
      obtain ⟨found, column, built, freshKey, -, rfl⟩ := takeColumn_eq_ok first
      refine ih extended ?_ rest
      -- The catalog completes the column, but does not rename it.
      have declared := sourced.withColumn built freshKey
      rw [Function.update_eq_self_iff.2 rfl] at declared
      refine forall_updateColumn declared fun c member => ?_
      rw [(complete_spec found c).2.1]
      exact ⟨nofun, (declared c member).2⟩

theorem takeIndices {indices : List Index} {seen : List String} {t' : Table}
    (sourced : t.Sourced d renamed)
    (taken : Discovery.takeIndices t seen indices = .ok t') : t'.Sourced d renamed := by
  induction indices generalizing t seen with
  | nil =>
      obtain rfl := Except.ok.inj taken
      exact sourced
  | cons index rest ih =>
      rw [Discovery.takeIndices] at taken
      split at taken
      · exact ih sourced taken
      · split at taken
        · cases taken
        · exact ih (t := t.attachIndex index) (sourced.of_subset (List.Subset.refl _)) taken

/-- The catalog has no columns with reserved names, or the table is refused. -/
theorem discoverTable {name : String} {db db' : Database}
    (discovered : (Discovery.discoverTable name).run db = (.ok t, db')) :
    t.Sourced db.workspace.dialect fun _ => none := by
  obtain ⟨dialect, _, asked, rest⟩ := ExceptT.run_bind_eq_ok_iff.1 discovered
  obtain rfl : db.workspace.dialect = dialect := Except.ok.inj (congrArg Prod.fst asked)
  obtain ⟨columns, _, -, rest⟩ := ExceptT.run_bind_eq_ok_iff.1 rest
  obtain ⟨declared, _, taken, rest⟩ := ExceptT.run_bind_eq_ok_iff.1 rest
  rw [ExceptT.run_liftExcept] at taken
  have sourced := takeColumns (.new _ name) (.new _ name _) (congrArg Prod.fst taken)
  split at rest
  · obtain rfl := Except.ok.inj (congrArg Prod.fst rest)
    exact sourced.of_subset (List.Subset.refl _)
  · obtain ⟨indices, _, -, rest⟩ := ExceptT.run_bind_eq_ok_iff.1 rest
    obtain ⟨indexed, _, taken, rest⟩ := ExceptT.run_bind_eq_ok_iff.1 rest
    rw [ExceptT.run_liftExcept] at taken
    obtain rfl := Except.ok.inj (congrArg Prod.fst rest)
    exact (sourced.takeIndices (congrArg Prod.fst taken)).of_subset (List.Subset.refl _)

end Sourced

theorem Titled.sourced (titled : t.Titled d renamed) : t.Sourced d renamed := by
  induction titled with
  | new name => exact .new d name _
  | discover same discovered => exact same ▸ .discoverTable discovered
  | operate before operation same ih =>
      subst same
      rename_i db
      have wellFormed := reached_wellFormed _ _ before.reachedIn
      rcases operation.run_cases wellFormed.toRooted db with
        ⟨plan, planned, succeeded, after⟩ | ⟨cause, failed, unchanged⟩
      · rw [after, succeeded]
        exact ih.plan wellFormed.keys planned
      · rw [unchanged, failed]
        exact ih
  | retarget _ old new ih => exact ih.of_subset (List.Subset.refl _)

/-! ## Views -/

theorem Titled.define (titled : t.Titled d renamed) {db : Database}
    (same : db.workspace.dialect = d) {s : ColumnSpec} {t' : Table}
    (defined : t.define d s = .ok t') :
    t'.Titled d (Function.update renamed s.key none) := by
  have ran : (Operation.define s).alteration.run (t, db) = (.ok (), t', db) := by
    change (Alteration.define s).run (t, db) = _
    rw [Alteration.define, Alteration.run_replace, same, defined]
  have defined := titled.operate (.define s) same
  rw [ran] at defined
  exact defined

/-- The columns of a view are defined one after the other. -/
theorem Titled.defineEach {start : Table} (titled : start.Titled d fun _ => none) {db : Database}
    (same : db.workspace.dialect = d) {columns : List OutputColumn}
    (defined : columns.foldlM (fun t c => t.define d (View.columnSpec c)) start = .ok t) :
    t.Titled d fun _ => none := by
  induction columns generalizing start with
  | nil =>
      obtain rfl := Except.ok.inj defined
      exact titled
  | cons column columns ih =>
      rw [List.foldlM_cons] at defined
      obtain ⟨extended, first, rest⟩ := Except.bind_eq_ok_iff.1 defined
      have further := titled.define same first
      rw [Function.update_eq_self_iff.2 rfl] at further
      exact ih further rest

theorem Titled.ofQuery {name : String} {q : Query} {v : View} {db db' : Database}
    (made : (View.ofQuery name q).run db = (.ok v, db')) :
    v.table.Titled db.workspace.dialect fun _ => none := by
  obtain ⟨compiled, between, selected, rest⟩ := ExceptT.run_bind_eq_ok_iff.1 made
  have kept := Database.keepsWorkspace_selectStatement q db
  rw [selected] at kept
  split at rest
  · obtain ⟨_, _, refused, -⟩ := ExceptT.run_bind_eq_ok_iff.1 rest
    cases refused
  · obtain ⟨dialect, _, asked, rest⟩ := ExceptT.run_bind_eq_ok_iff.1 rest
    obtain rfl : between.workspace.dialect = dialect := Except.ok.inj (congrArg Prod.fst asked)
    obtain ⟨t, _, defined, ended⟩ := ExceptT.run_bind_eq_ok_iff.1 rest
    rw [ExceptT.run_liftExcept, kept] at defined
    obtain rfl := Except.ok.inj (congrArg Prod.fst ended)
    exact (Titled.new name).defineEach rfl (congrArg Prod.fst defined)

/-- A column bears a reserved name exactly if it was renamed to it, and was neither renamed nor
declared again since then.  That holds of all tables that programs can have, whichever operations
fail; a view has no column with a reserved name. -/
theorem reserved_names_come_by_renaming (d : Dialect) :
    (∀ (t : Table) (renamed : String → Option String), t.Titled d renamed → ∀ c ∈ t.columns,
      (d.Reserves c.name ↔ ∃ name, renamed c.key = some name ∧ d.Reserves name)) ∧
    ∀ (name : String) (q : Query) (v : View) (db db' : Database), db.workspace.dialect = d →
      (View.ofQuery name q).run db = (.ok v, db') → ∀ c ∈ v.table.columns, ¬ d.Reserves c.name := by
  constructor
  · intro t renamed titled c member
    obtain ⟨named, unnamed⟩ := titled.sourced c member
    cases source : renamed c.key with
    | none => simpa using unnamed source
    | some name => simp [named name source]
  · rintro name q v db db' rfl made c member
    exact ((Titled.ofQuery made).sourced c member).2 rfl

section Parcels

/-- A table with the names that its columns were renamed to, after one more operation. -/
def traced (state : Table × (String → Option String)) (operation : Operation) :
    Table × (String → Option String) :=
  let ran := operation.alteration.run (state.1, archive)
  (ran.2.1, if ran.1.isOk then operation.renames state.2 else state.2)

theorem Titled.traced {state : Table × (String → Option String)}
    (titled : state.1.Titled .postgres state.2) (operations : List Operation) :
    (operations.foldl traced state).1.Titled .postgres (operations.foldl traced state).2 := by
  induction operations generalizing state with
  | nil => exact titled
  | cons operation rest ih =>
      have postgres : archive.workspace.dialect = .postgres := rfl
      exact ih (titled.operate operation postgres)

/-- A table in the database. -/
def weights : Table × (String → Option String) :=
  [.define { key := "weight", kind := .int }, .create].foldl traced
    (new .postgres "parcel", fun _ => none)

/-- The table with another column, which is renamed to a reserved name; a further column is refused
for such a name. -/
def parcels : Table × (String → Option String) :=
  [.extend { key := "place", kind := .text }, .renameColumn "place" "CTID",
    .extend { key := "ctid", kind := .int }].foldl traced weights

/-- The renamed column bears a reserved name.  A view has no such column. -/
theorem parcels_bear_reserved_name :
    parcels.1.columns.map Column.name = ["weight", "CTID"] ∧
      (∃ c ∈ parcels.1.columns, Dialect.postgres.Reserves c.name ∧
        parcels.2 c.key = some c.name) ∧
      ∃ v db', (View.ofQuery "load" { relation := .table weights.1 }).run archive = (.ok v, db') ∧
        v.table.columns.map Column.name = ["weight"] ∧
        ∀ c ∈ v.table.columns, ¬ Dialect.postgres.Reserves c.name := by
  obtain ⟨tables, views⟩ := reserved_names_come_by_renaming .postgres
  have titled : parcels.1.Titled .postgres parcels.2 := ((Titled.new "parcel").traced _).traced _
  have names : parcels.1.columns.map Column.name = ["weight", "CTID"] := by decide +kernel
  refine ⟨names, ?_, ?_⟩
  · have listed : "CTID" ∈ parcels.1.columns.map Column.name := by simp [names]
    obtain ⟨c, member, named⟩ := List.mem_map.1 listed
    have reserved : Dialect.postgres.Reserves c.name := by
      rw [named]
      decide +kernel
    obtain ⟨name, source, -⟩ := (tables _ _ titled c member).1 reserved
    refine ⟨c, member, reserved, ?_⟩
    rw [source, (titled.sourced c member).1 name source]
  · have selected : (((View.ofQuery "load" { relation := .table weights.1 }).run archive).1.map
        fun v => v.table.columns.map Column.name) = .ok ["weight"] := by decide +kernel
    obtain ⟨v, made, columns⟩ := Except.map_eq_ok_iff.1 selected
    exact ⟨v, _, Prod.ext made rfl, columns, views _ _ v _ _ rfl (Prod.ext made rfl)⟩

end Parcels

end Table

end RowQuery
