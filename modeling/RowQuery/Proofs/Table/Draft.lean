import RowQuery.Proofs.Schema.FailedOperation
import RowQuery.Proofs.Table.WellFormed

/-!
# Drafts of tables

As long as a table is not in the database it changes in memory.  Its sequences and indices are
named for the table and for what a column was called when they were declared, and they keep their
names while columns are renamed.  An index is only declared if its table has none of that name; a
sequence comes with its column, whatever the sequences of the table are called.
-/

namespace RowQuery.Table

variable {d : Dialect} {t : Table} {declared : String → String}

/-- The operation changes a table without creating, dropping or renaming it. -/
def Operation.Drafts : Operation → Prop
  | .create | .drop | .rename _ => False
  | _ => True

/-- What the column of each key was called when it was declared, after an operation that
succeeds. -/
def Operation.declares (declared : String → String) : Operation → String → String
  | .define spec | .extend spec =>
      fun key => if key = spec.key then spec.columnName else declared key
  | _ => declared

/-- A table that was declared and changed, but not created, and what the column of each key was
called when it was declared. -/
inductive Drafted (d : Dialect) : Table → (String → String) → Prop
  | new (name : String) (declared : String → String) : Drafted d (new d name) declared
  | operate {t : Table} {declared : String → String} (before : Drafted d t declared)
      (operation : Operation) (drafts : operation.Drafts) {db : Database}
      (same : db.workspace.dialect = d) :
      Drafted d (operation.alteration.run (t, db)).2.1
        (if (operation.alteration.run (t, db)).1.isOk then operation.declares declared
          else declared)

/-- The sequences and indices of a draft are named for what their columns were called. -/
structure Glued (d : Dialect) (t : Table) (declared : String → String) : Prop
    extends WellFormed d t where
  uncreated : t.state = .uncreated
  sequences : ∀ c ∈ t.columns, ∀ sequence, c.sequence = some sequence →
    d.sequenceName t.name (declared c.key) = some sequence
  indexNames : ∀ i ∈ t.indices, ∃ column, i.name = t.name ++ "_" ++ column ++ "_idx"
  distinct : d.indexesKeys = false → (t.indices.map Index.name).Nodup

namespace Glued

theorem new (d : Dialect) (name : String) (declared : String → String) :
    (Table.new d name).Glued d declared where
  toWellFormed := .new d name
  uncreated := rfl
  sequences := by simp [Table.new]
  indexNames := by simp [Table.new]
  distinct := by simp [Table.new]

/-- A column is declared. -/
theorem withColumn (glued : t.Glued d declared) {spec : ColumnSpec} {column : Column}
    (built : spec.build t.name d = .ok column) (freshKey : column.key ∉ t.columns.map Column.key)
    (freshName : column.name ∉ t.columns.map Column.name) :
    (t.withColumn d column).Glued d
      fun key => if key = spec.key then spec.columnName else declared key := by
  obtain ⟨type, -, made⟩ := build_eq built
  have key : column.key = spec.key := (build_eq_ok built).1
  refine ⟨glued.toWellFormed.withColumn built freshKey freshName, glued.uncreated, ?_, ?_, ?_⟩
  · intro c member sequence named
    rcases List.mem_append.1 member with old | new
    · -- The other columns have other keys and were called what they were.
      have other : c.key ≠ spec.key := by
        rintro same
        exact freshKey (key ▸ same ▸ List.mem_map_of_mem old)
      rw [if_neg other]
      exact glued.sequences c old sequence named
    · obtain rfl := List.mem_singleton.1 new
      rw [if_pos key]
      rw [made] at named
      dsimp only at named
      split at named
      · exact named
      · cases named
  · intro i member
    rcases List.mem_append.1 member with old | new
    · exact glued.indexNames i old
    · rw [eq_of_mem_keyIndices new]
      exact ⟨column.name, rfl⟩
  · intro keyless
    have none : keyIndices d t.name column = [] := by simp [keyIndices, keyless]
    rw [Table.withColumn, none, List.append_nil]
    exact glued.distinct keyless

theorem withIndex (glued : t.Glued d declared) {column : Column} (member : column ∈ t.columns)
    {unique : Bool}
    (fresh : (Index.onColumn d t.name column.name unique).name ∉ t.indices.map Index.name) :
    (t.withIndex (.onColumn d t.name column.name unique)).Glued d declared := by
  refine ⟨glued.toWellFormed.withIndex member unique, glued.uncreated, glued.sequences, ?_, ?_⟩
  · intro i known
    rcases List.mem_append.1 known with old | new
    · exact glued.indexNames i old
    · rw [List.mem_singleton.1 new]
      exact ⟨column.name, rfl⟩
  · intro keyless
    rw [Table.withIndex, List.map_append, List.map_singleton, ← List.concat_eq_append]
    exact (glued.distinct keyless).concat fresh

/-- A table with the same name keeps the names of the sequences and indices that it keeps. -/
theorem of_part {t' : Table} (glued : t.Glued d declared) (wellFormed : t'.WellFormed d)
    (name : t'.name = t.name) (state : t'.state = t.state)
    (columns : ∀ c ∈ t'.columns, ∃ old ∈ t.columns, c.key = old.key ∧ c.sequence = old.sequence)
    (indices : (t'.indices.map Index.name).Sublist (t.indices.map Index.name)) :
    t'.Glued d declared := by
  refine ⟨wellFormed, state.trans glued.uncreated, ?_, ?_, ?_⟩
  · intro c member sequence named
    obtain ⟨old, known, key, same⟩ := columns c member
    rw [name, key]
    exact glued.sequences old known sequence (same ▸ named)
  · intro i member
    obtain ⟨old, known, same⟩ := List.mem_map.1 (indices.subset (List.mem_map_of_mem member))
    rw [name, ← same]
    exact glued.indexNames old known
  · exact fun keyless => (glued.distinct keyless).sublist indices

/-- Every change keeps the names. -/
theorem plan (glued : t.Glued d declared) {operation : Operation} {plan : Plan}
    (planned : Planned d t operation plan) (drafts : operation.Drafts) :
    plan.after.Glued d (operation.declares declared) := by
  have wellFormed := glued.toWellFormed.plan planned
  have same : ∀ c ∈ t.columns, ∃ old ∈ t.columns, c.key = old.key ∧ c.sequence = old.sequence :=
    fun c member => ⟨c, member, rfl, rfl⟩
  cases planned with
  | create | drop | rename => exact drafts.elim
  | extend live built freshKey freshName => exact glued.withColumn built freshKey freshName
  | define fresh built freshKey freshName => exact glued.withColumn built freshKey freshName
  | addIndex live found fresh => exact glued.withIndex (mem_of_column? found) fresh
  | defineIndex live found fresh => exact glued.withIndex (mem_of_column? found) fresh
  | reference => exact glued.of_part wellFormed rfl rfl same (List.Sublist.refl _)
  | dropIndex => exact glued.of_part wellFormed rfl rfl same (List.eraseP_sublist.map _)
  | dropColumn live found =>
      dsimp only at wellFormed ⊢
      unfold Table.forgetColumn at wellFormed ⊢
      rw [found] at wellFormed ⊢
      exact glued.of_part wellFormed rfl rfl
        (fun c member => same c (List.mem_of_mem_eraseP member)) (List.filter_sublist.map _)
  | @renameColumn key name column =>
      refine glued.of_part wellFormed rfl rfl ?_ ?_
      · exact forall_updateColumn same same
      · have names : (t.columnRenamed d column name).indices.map Index.name =
            t.indices.map Index.name := by
          rw [Table.columnRenamed, List.map_map]
          refine List.map_congr_left fun i _ => ?_
          dsimp only [Function.comp]
          split <;> rfl
        rw [names]

end Glued

/-- An operation carries out its plan or leaves the table as it is. -/
theorem Operation.run_cases (operation : Operation) (rooted : t.Rooted) (db : Database) :
    (∃ plan, Planned db.workspace.dialect t operation plan ∧
      (operation.alteration.run (t, db)).1 = .ok () ∧
      (operation.alteration.run (t, db)).2.1 = plan.after) ∨
    ∃ cause, (operation.alteration.run (t, db)).1 = .error cause ∧
      (operation.alteration.run (t, db)).2.1 = t := by
  cases ran : (operation.alteration.run (t, db)).1 with
  | ok _ =>
      obtain ⟨plan, planned, after, -⟩ := operation.run_eq_ok rooted (Prod.ext ran rfl)
      exact .inl ⟨plan, planned, rfl, after⟩
  | error cause => exact .inr ⟨cause, rfl, rooted.failed (Prod.ext ran rfl)⟩

theorem Drafted.glued (drafted : t.Drafted d declared) : t.Glued d declared := by
  induction drafted with
  | new name declared => exact .new d name declared
  | operate before operation drafts same ih =>
      subst same
      rename_i db
      rcases operation.run_cases ih.toRooted db with ⟨plan, planned, succeeded, after⟩ |
        ⟨cause, failed, unchanged⟩
      · rw [after, succeeded]
        exact ih.plan planned drafts
      · rw [unchanged, failed]
        exact ih

theorem Drafted.reachedIn (drafted : t.Drafted d declared) : t.ReachedIn d := by
  induction drafted with
  | new name declared => exact .new name
  | operate _ operation _ same ih => exact ih.operate operation same

/-- What the columns with a sequence were called when they were declared. -/
def generatedAs (t : Table) (declared : String → String) : List String :=
  (t.columns.filter fun c => c.sequence.isSome).map fun c => declared c.key

/-- As long as the columns with a sequence are called what they were when they were declared, no
two of them were called the same. -/
theorem generatedAs_nodup (names : (t.columns.map Column.name).Nodup)
    (kept : ∀ c ∈ t.columns, c.sequence.isSome = true → declared c.key = c.name) :
    (t.generatedAs declared).Nodup := by
  have same : t.generatedAs declared =
      (t.columns.filter fun c => c.sequence.isSome).map Column.name := by
    refine List.map_congr_left fun c member => ?_
    obtain ⟨known, some⟩ := List.mem_filter.1 member
    exact kept c known some
  rw [same]
  exact names.sublist (List.filter_sublist.map _)

end RowQuery.Table
