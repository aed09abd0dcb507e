import RowQuery.Proofs.Database.Running
import RowQuery.Proofs.Table.Declared

/-!
# Operations on tables

An operation works out first, from the table alone, which statements it has to issue and which
table it is to leave; then it issues the statements.  If they fail the table is left as it
was.  For most operations this is the order in which they work.  A column that is added is in
the table already while its statements run, and is taken back if they fail; this undoes
exactly what was done because every index and every reference of a table is on one of its
columns.
-/

namespace RowQuery

namespace Alteration

variable {α β : Type} (t : Table) (db : Database)

theorem run_table_bind (rest : Table → Alteration β) :
    (table >>= rest).run (t, db) = (rest t).run (t, db) :=
  rfl

theorem run_dialect_bind (rest : Dialect → Alteration β) :
    (dialect >>= rest).run (t, db) = (rest db.workspace.dialect).run (t, db) :=
  rfl

theorem run_update (change : Table → Table) :
    (update change).run (t, db) = (.ok (), change t, db) :=
  rfl

theorem run_attempt_bind (alteration : Alteration α) (rest : Outcome α → Alteration β) :
    (attempt alteration >>= rest).run (t, db) =
      (rest (alteration.run (t, db)).1).run (alteration.run (t, db)).2 :=
  rfl

theorem run_replace (make : Dialect → Table → Outcome Table) :
    (replace make).run (t, db) =
      match make db.workspace.dialect t with
      | .ok made => (.ok (), made, db)
      | .error cause => (.error cause, t, db) := by
  simp only [replace, run_dialect_bind, run_table_bind]
  cases make db.workspace.dialect t <;> rfl

end Alteration

namespace Table

/-- The operations on a table. -/
inductive Operation where
  | create
  | drop
  | rename (name : String)
  | extend (spec : ColumnSpec)
  | dropColumn (key : String)
  | renameColumn (key name : String)
  | addIndex (key : String) (unique : Bool)
  | dropIndex (name : String)
  | define (spec : ColumnSpec)
  | defineIndex (key : String) (unique : Bool)
  | reference (near : String) (farTable : Table) (far : String)

def Operation.alteration : Operation → Alteration Unit
  | .create => .create
  | .drop => .drop
  | .rename name => .rename name
  | .extend spec => .extend spec
  | .dropColumn key => .dropColumn key
  | .renameColumn key name => .renameColumn key name
  | .addIndex key unique => .addIndex key unique
  | .dropIndex name => .dropIndex name
  | .define spec => .define spec
  | .defineIndex key unique => .defineIndex key unique
  | .reference near farTable far => .reference near farTable far

/-- What an operation is about to do: the statements it issues, unless it stays in memory, and
the table it leaves. -/
structure Plan where
  statements : Option (List String)
  after : Table

/-- The plan of an operation whose statements are needed only if the table is in the
database. -/
def planned (t : Table) (statements : Outcome (List String)) (after : Table) : Outcome Plan :=
  if t.isCreated then do
    let statements ← statements
    .ok ⟨some statements, after⟩
  else .ok ⟨none, after⟩

/-- The plan of an operation, unless it refuses to do anything. -/
def Operation.plan (d : Dialect) (t : Table) : Operation → Outcome Plan
  | .create => do
      t.ensureLive
      if t.isCreated then .error (.misuse ("table " ++ t.name ++ " already exists"))
      let statements ← d.createTable t
      .ok ⟨some statements, { t with state := .created }⟩
  | .drop => do
      t.ensureLive
      t.planned (.ok (d.dropTable t)) { t with state := .dropped }
  | .rename name => do
      t.ensureLive
      t.planned (.ok [d.renameTable t.name name]) (t.renamed d name)
  | .extend spec => do
      t.ensureLive
      let extended ← t.addColumn d spec
      extended.planned (extended.addition d spec.key) extended
  | .dropColumn key => do
      t.ensureLive
      let column ← t.require key
      t.planned (.ok (d.dropColumn t column)) (t.forgetColumn key)
  | .renameColumn key name => do
      t.ensureLive
      let column ← t.require key
      if t.columns.any fun c => c.name = name then .error (.duplicate (t.name ++ "." ++ name))
      t.planned (.ok [d.renameColumn t column name]) (t.columnRenamed d column name)
  | .addIndex key unique => do
      t.ensureLive
      let index ← t.newIndex d key unique
      t.planned (.ok [d.createIndex index]) (t.withIndex index)
  | .dropIndex name => do
      t.ensureLive
      match t.indices.find? fun i => i.name = name with
      | none => .error (.unmapped ("no index " ++ name ++ " on table " ++ t.name))
      | some index =>
          t.planned (.ok [d.dropIndexStatement index])
            { t with indices := t.indices.eraseP fun i => i.name = name }
  | .define spec => do
      let defined ← t.define d spec
      .ok ⟨none, defined⟩
  | .defineIndex key unique => do
      let indexed ← t.defineIndex d key unique
      .ok ⟨none, indexed⟩
  | .reference near farTable far => do
      let referring ← t.reference near farTable far
      .ok ⟨none, referring⟩

/-- What comes of a plan. -/
def Plan.run (p : Plan) (t : Table) (db : Database) : Outcome Unit × Table × Database :=
  match p.statements with
  | none => (.ok (), p.after, db)
  | some statements =>
      match (Database.changeSchema statements).run db with
      | (.ok _, db) => (.ok (), p.after, db)
      | (.error cause, db) => (.error cause, t, db)

/-- What comes of a plan, or of a refusal. -/
def runPlan (plan : Outcome Plan) (t : Table) (db : Database) : Outcome Unit × Table × Database :=
  match plan with
  | .ok plan => plan.run t db
  | .error cause => (.error cause, t, db)

/-- The indices and the references of a table are on its columns. -/
structure Rooted (t : Table) : Prop where
  indices : ∀ index ∈ t.indices, index.column ∈ t.columns.map Column.name
  references : ∀ reference ∈ t.references, reference.near ∈ t.columns.map Column.key

variable {d : Dialect} {t t' : Table} {db : Database}

theorem column?_withColumn {column : Column} (fresh : column.key ∉ t.columns.map Column.key) :
    (t.withColumn d column).column? column.key = some column := by
  have others : t.columns.find? (fun c => c.key = column.key) = none := by
    rw [List.find?_eq_none]
    intro c member same
    exact fresh (List.mem_map.2 ⟨c, member, by simpa using same⟩)
  simp [column?, withColumn, List.find?_append, others]

/-- A new column that is forgotten has left no trace. -/
theorem Rooted.forgetColumn_withColumn (rooted : t.Rooted) {column : Column}
    (freshKey : column.key ∉ t.columns.map Column.key)
    (freshName : column.name ∉ t.columns.map Column.name) :
    (t.withColumn d column).forgetColumn column.key = t := by
  have columns : (t.columns ++ [column]).eraseP (fun c => c.key = column.key) = t.columns := by
    rw [List.eraseP_append_right _ fun c member => ?_]
    · simp
    · have other : c.key ≠ column.key := fun same =>
        freshKey (List.mem_map.2 ⟨c, member, same⟩)
      simpa using other
  have indices : (t.indices ++ keyIndices d t.name column).filter
      (fun i => i.column ≠ column.name) = t.indices := by
    rw [List.filter_append, List.filter_eq_self.2 fun i member => ?_]
    · have own : (keyIndices d t.name column).filter (fun i => i.column ≠ column.name) = [] := by
        unfold keyIndices
        split <;> simp [Index.onColumn]
      rw [own, List.append_nil]
    · have other : i.column ≠ column.name := fun same =>
        freshName (same ▸ rooted.indices i member)
      simpa using other
  have references : t.references.filter (fun r => r.near ≠ column.key) = t.references := by
    rw [List.filter_eq_self]
    intro r member
    have other : r.near ≠ column.key := fun same =>
      freshKey (same ▸ rooted.references r member)
    simpa using other
  rw [forgetColumn, column?_withColumn freshKey]
  dsimp only [withColumn]
  rw [columns, indices, references]

theorem runPlan_bind {α : Type} {outcome : Outcome α} {rest : α → Alteration Unit}
    {plan : α → Outcome Plan}
    (same : ∀ a, outcome = .ok a → (rest a).run (t, db) = runPlan (plan a) t db) :
    ((liftM outcome : Alteration α) >>= rest).run (t, db) = runPlan (outcome >>= plan) t db := by
  cases outcome with
  | error cause => rfl
  | ok a => exact same a rfl

/-- Statements are issued, and the table changes after them. -/
theorem run_issue_bind {statements : Dialect → Table → Outcome (List String)}
    {rest : Alteration Unit} {after : Table}
    (ends : ∀ db', db'.workspace = db.workspace → rest.run (t, db') = (.ok (), after, db')) :
    (do Alteration.issue statements; rest).run (t, db) =
      runPlan (do let sqls ← statements db.workspace.dialect t; .ok ⟨some sqls, after⟩) t db := by
  simp only [Alteration.issue, bind_assoc, Alteration.run_dialect_bind, Alteration.run_table_bind]
  refine runPlan_bind fun sqls _ => ?_
  have kept := (Database.changeSchema_sound db sqls).workspace
  have issued : (Alteration.onDatabase (Database.changeSchema sqls)).run (t, db) =
      (((Database.changeSchema sqls).run db).1, t, ((Database.changeSchema sqls).run db).2) := rfl
  rw [ExceptT.run_bind_eq, issued]
  dsimp only [runPlan, Plan.run]
  generalize (Database.changeSchema sqls).run db = served at kept ⊢
  obtain ⟨_ | _, db'⟩ := served
  · rfl
  · exact ends db' kept

theorem run_issueIfCreated_bind {statements : Dialect → Table → Outcome (List String)}
    {rest : Alteration Unit} {after : Table}
    (ends : ∀ db', db'.workspace = db.workspace → rest.run (t, db') = (.ok (), after, db')) :
    (do Alteration.issueIfCreated statements; rest).run (t, db) =
      runPlan (t.planned (statements db.workspace.dialect t) after) t db := by
  simp only [Alteration.issueIfCreated, bind_assoc, Alteration.run_table_bind, planned]
  by_cases created : t.isCreated = true
  · rw [if_pos created, if_pos created]
    exact run_issue_bind ends
  · rw [if_neg created, if_neg created]
    exact ends db rfl

theorem run_issueIfCreated {statements : Dialect → Table → Outcome (List String)} :
    (Alteration.issueIfCreated statements).run (t, db) =
      runPlan (t.planned (statements db.workspace.dialect t) t) t db := by
  have issued : (do Alteration.issueIfCreated statements; pure ()).run (t, db) =
      runPlan (t.planned (statements db.workspace.dialect t) t) t db :=
    run_issueIfCreated_bind fun _ _ => rfl
  rwa [bind_pure_unit] at issued

/-- A plan carried out on the table it leaves, with the failure undone afterwards, comes to the
same as the plan carried out on the table itself. -/
theorem runPlan_undone {plan : Outcome Plan} (undo : Table → Table) (undone : undo t' = t) :
    (match (runPlan plan t' db).1 with
      | .ok _ => (.ok (), (runPlan plan t' db).2)
      | .error cause => (.error cause, undo (runPlan plan t' db).2.1, (runPlan plan t' db).2.2)) =
      runPlan plan t db := by
  cases plan with
  | error cause => simp only [runPlan, undone]
  | ok plan =>
      obtain ⟨statements, after⟩ := plan
      cases statements with
      | none => rfl
      | some statements =>
          simp only [runPlan, Plan.run]
          rcases (Database.changeSchema statements).run db with ⟨_ | _, db'⟩
          · simp only [undone]
          · rfl

theorem run_replace_eq (make : Dialect → Table → Outcome Table) :
    (Alteration.replace make).run (t, db) =
      runPlan (do let made ← make db.workspace.dialect t; .ok ⟨none, made⟩) t db := by
  rw [Alteration.run_replace]
  cases make db.workspace.dialect t <;> rfl

/-- A column is added before its statements run, which makes no difference. -/
theorem run_extend_eq (rooted : t.Rooted) (spec : ColumnSpec) (db : Database) :
    (Alteration.extend spec).run (t, db) =
      runPlan ((Operation.extend spec).plan db.workspace.dialect t) t db := by
  rw [Alteration.extend, Operation.plan, Alteration.run_table_bind]
  refine runPlan_bind fun _ _ => ?_
  rw [ExceptT.run_bind_eq, Alteration.run_replace]
  cases added : t.addColumn db.workspace.dialect spec with
  | error cause => rfl
  | ok extended =>
      obtain ⟨column, built, rfl, freshKey, freshName⟩ := addColumn_eq_ok added
      have undone : (t.withColumn db.workspace.dialect column).forgetColumn spec.key = t := by
        rw [← (build_eq_ok built).1]
        exact rooted.forgetColumn_withColumn freshKey freshName
      change _ = runPlan (planned (t.withColumn _ column) _ _) t db
      rw [← runPlan_undone (fun t => t.forgetColumn spec.key) undone]
      dsimp only
      rw [Alteration.run_attempt_bind, run_issueIfCreated]
      generalize runPlan _ _ _ = ran
      rcases ran with ⟨_ | _, left⟩ <;> rfl

/-- An operation carries its plan out, or refuses and does nothing. -/
theorem Operation.run_eq (operation : Operation) (rooted : t.Rooted) (db : Database) :
    operation.alteration.run (t, db) =
      runPlan (operation.plan db.workspace.dialect t) t db := by
  cases operation with
  | create =>
      rw [alteration, Alteration.create, plan, Alteration.run_table_bind]
      refine runPlan_bind fun _ _ => ?_
      split
      · rfl
      · exact run_issue_bind fun _ _ => rfl
  | drop =>
      rw [alteration, Alteration.drop, plan, Alteration.run_table_bind]
      refine runPlan_bind fun _ _ => ?_
      exact run_issueIfCreated_bind fun _ _ => rfl
  | rename name =>
      rw [alteration, Alteration.rename, plan, Alteration.run_table_bind]
      refine runPlan_bind fun _ _ => ?_
      refine run_issueIfCreated_bind fun db' same => ?_
      rw [Alteration.run_dialect_bind, same, Alteration.run_update]
  | extend spec => exact run_extend_eq rooted spec db
  | dropColumn key =>
      rw [alteration, Alteration.dropColumn, plan, Alteration.run_table_bind]
      refine runPlan_bind fun _ _ => ?_
      refine runPlan_bind fun column _ => ?_
      exact run_issueIfCreated_bind fun _ _ => rfl
  | renameColumn key name =>
      rw [alteration, Alteration.renameColumn, plan, Alteration.run_table_bind]
      refine runPlan_bind fun _ _ => ?_
      refine runPlan_bind fun column _ => ?_
      split
      · rfl
      · refine run_issueIfCreated_bind fun db' same => ?_
        rw [Alteration.run_dialect_bind, same, Alteration.run_update]
  | addIndex key unique =>
      rw [alteration, Alteration.addIndex, plan, Alteration.run_table_bind]
      refine runPlan_bind fun _ _ => ?_
      rw [Alteration.run_dialect_bind]
      refine runPlan_bind fun index _ => ?_
      exact run_issueIfCreated_bind fun _ _ => rfl
  | dropIndex name =>
      rw [alteration, Alteration.dropIndex, plan, Alteration.run_table_bind]
      refine runPlan_bind fun _ _ => ?_
      cases t.indices.find? fun i => i.name = name with
      | none => rfl
      | some index => exact run_issueIfCreated_bind fun _ _ => rfl
  | define spec => exact run_replace_eq _
  | defineIndex key unique => exact run_replace_eq _
  | reference near farTable far => exact run_replace_eq _

end Table

end RowQuery
