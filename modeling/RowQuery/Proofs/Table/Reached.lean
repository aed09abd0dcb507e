import RowQuery.Proofs.Table.Operation

/-!
# What operations make of a table

For each operation, the plan it has unless it refuses: what it has checked, what it issues and
which table it leaves.  A property of tables that every plan keeps holds of every table that
can be reached, whichever statements fail on the way.
-/

namespace RowQuery.Table

/-- The statements that go to the database if the table is in it. -/
def issued (t : Table) (statements : List String) : Option (List String) :=
  if t.isCreated then some statements else none

/-- The plans of the operations. -/
inductive Planned (d : Dialect) (t : Table) : Operation → Plan → Prop
  | create {statements} (fresh : t.state = .uncreated)
      (written : d.createTable t = .ok statements) :
      Planned d t .create ⟨some statements, { t with state := .created }⟩
  | drop (live : t.state ≠ .dropped) :
      Planned d t .drop ⟨t.issued (d.dropTable t), { t with state := .dropped }⟩
  | rename {name} (live : t.state ≠ .dropped) :
      Planned d t (.rename name) ⟨t.issued [d.renameTable t.name name], t.renamed d name⟩
  | extend {spec column statements} (live : t.state ≠ .dropped)
      (built : spec.build t.name d = .ok column)
      (freshKey : column.key ∉ t.columns.map Column.key)
      (freshName : column.name ∉ t.columns.map Column.name)
      (written : t.isCreated = true →
        d.addColumn (t.withColumn d column) column = .ok statements) :
      Planned d t (.extend spec) ⟨t.issued statements, t.withColumn d column⟩
  | dropColumn {key column} (live : t.state ≠ .dropped) (found : t.column? key = some column) :
      Planned d t (.dropColumn key) ⟨t.issued (d.dropColumn t column), t.forgetColumn key⟩
  | renameColumn {key name column} (live : t.state ≠ .dropped)
      (found : t.column? key = some column) (fresh : name ∉ t.columns.map Column.name) :
      Planned d t (.renameColumn key name)
        ⟨t.issued [d.renameColumn t column name], t.columnRenamed d column name⟩
  | addIndex {key unique column} (live : t.state ≠ .dropped)
      (found : t.column? key = some column)
      (fresh : (Index.onColumn d t.name column.name unique).name ∉ t.indices.map Index.name) :
      Planned d t (.addIndex key unique)
        ⟨t.issued [d.createIndex (.onColumn d t.name column.name unique)],
          t.withIndex (.onColumn d t.name column.name unique)⟩
  | dropIndex {name index} (live : t.state ≠ .dropped)
      (found : t.indices.find? (fun i => i.name = name) = some index) :
      Planned d t (.dropIndex name)
        ⟨t.issued [d.dropIndexStatement index],
          { t with indices := t.indices.eraseP fun i => i.name = name }⟩
  | define {spec column} (fresh : t.state = .uncreated)
      (built : spec.build t.name d = .ok column)
      (freshKey : column.key ∉ t.columns.map Column.key)
      (freshName : column.name ∉ t.columns.map Column.name) :
      Planned d t (.define spec) ⟨none, t.withColumn d column⟩
  | defineIndex {key unique column} (live : t.state ≠ .dropped)
      (found : t.column? key = some column)
      (fresh : (Index.onColumn d t.name column.name unique).name ∉ t.indices.map Index.name) :
      Planned d t (.defineIndex key unique)
        ⟨none, t.withIndex (.onColumn d t.name column.name unique)⟩
  | reference {near farTable far column} (found : t.column? near = some column) :
      Planned d t (.reference near farTable far)
        ⟨none, { t with references := t.references ++ [⟨near, farTable.name, far⟩] }⟩

variable {d : Dialect} {t t' : Table}

theorem ensureLive_eq_ok {u : Unit} (live : t.ensureLive = .ok u) : t.state ≠ .dropped := by
  intro dropped
  simp [ensureLive, dropped] at live

theorem isCreated_iff : t.isCreated = true ↔ t.state = .created := by
  simp [isCreated]

theorem uncreated_of_live (live : t.state ≠ .dropped) (absent : t.isCreated ≠ true) :
    t.state = .uncreated := by
  rw [Ne, isCreated_iff] at absent
  cases state : t.state with
  | uncreated => rfl
  | created => exact absurd state absent
  | dropped => exact absurd state live

theorem require_eq_ok_iff {key : String} {column : Column} :
    t.require key = .ok column ↔ t.column? key = some column := by
  unfold require
  split
  · rename_i found
    rw [found, Except.ok.injEq, Option.some.injEq]
  · rename_i absent
    rw [absent]
    exact iff_of_false nofun nofun

theorem require_eq_ok {key : String} {column : Column} (required : t.require key = .ok column) :
    t.column? key = some column :=
  require_eq_ok_iff.1 required

theorem planned_eq_ok {statements : Outcome (List String)} {after : Table} {plan : Plan} (planned : t.planned statements after = .ok plan) :
    ∃ sqls, (t.isCreated = true → statements = .ok sqls) ∧ plan = ⟨t.issued sqls, after⟩ := by
  unfold Table.planned at planned
  split at planned
  · rename_i created
    obtain ⟨sqls, written, ended⟩ := Except.bind_eq_ok_iff.1 planned
    refine ⟨sqls, fun _ => written, ?_⟩
    rw [← Except.ok.inj ended, issued, if_pos created]
  · rename_i absent
    refine ⟨[], fun created => absurd created absent, ?_⟩
    rw [← Except.ok.inj planned, issued, if_neg absent]

theorem planned_ok_eq_ok {sqls : List String} {after : Table} {plan : Plan}
    (planned : t.planned (.ok sqls) after = .ok plan) : plan = ⟨t.issued sqls, after⟩ := by
  unfold Table.planned at planned
  split at planned
  · rename_i created
    rw [← Except.ok.inj planned, issued, if_pos created]
  · rename_i absent
    rw [← Except.ok.inj planned, issued, if_neg absent]

theorem newIndex_eq_ok {key : String} {unique : Bool} {index : Index}
    (made : t.newIndex d key unique = .ok index) :
    ∃ column, t.column? key = some column ∧
      index = .onColumn d t.name column.name unique ∧ index.name ∉ t.indices.map Index.name := by
  obtain ⟨column, required, rest⟩ := Except.bind_eq_ok_iff.1 made
  dsimp only at rest
  split at rest
  · cases rest
  · rename_i clash
    obtain rfl := Except.ok.inj rest
    refine ⟨column, require_eq_ok required, rfl, fun member => ?_⟩
    obtain ⟨other, member, same⟩ := List.mem_map.1 member
    exact clash (List.any_eq_true.2 ⟨other, member, by simpa using same⟩)

/-- An operation that does not refuse has one of these plans. -/
theorem Operation.plan_eq_ok {operation : Operation} {plan : Plan}
    (ok : operation.plan d t = .ok plan) :
    Planned d t operation plan := by
  cases operation with
  | create =>
      obtain ⟨_, live, rest⟩ := Except.bind_eq_ok_iff.1 ok
      split at rest
      · cases rest
      · rename_i absent
        obtain ⟨statements, written, ended⟩ := Except.bind_eq_ok_iff.1 rest
        obtain rfl := Except.ok.inj ended
        exact .create (uncreated_of_live (ensureLive_eq_ok live) absent) written
  | drop =>
      obtain ⟨_, live, rest⟩ := Except.bind_eq_ok_iff.1 ok
      obtain rfl := planned_ok_eq_ok rest
      exact .drop (ensureLive_eq_ok live)
  | rename name =>
      obtain ⟨_, live, rest⟩ := Except.bind_eq_ok_iff.1 ok
      obtain rfl := planned_ok_eq_ok rest
      exact .rename (ensureLive_eq_ok live)
  | extend spec =>
      obtain ⟨_, live, rest⟩ := Except.bind_eq_ok_iff.1 ok
      obtain ⟨extended, added, rest⟩ := Except.bind_eq_ok_iff.1 rest
      obtain ⟨column, built, rfl, freshKey, freshName⟩ := addColumn_eq_ok added
      obtain ⟨sqls, written, rfl⟩ := planned_eq_ok rest
      refine .extend (ensureLive_eq_ok live) built freshKey freshName fun created => ?_
      obtain ⟨column', required, written⟩ := Except.bind_eq_ok_iff.1 (written created)
      have found := require_eq_ok required
      rw [← (build_eq_ok built).1, column?_withColumn freshKey] at found
      obtain rfl := Option.some.inj found
      exact written
  | dropColumn key =>
      obtain ⟨_, live, rest⟩ := Except.bind_eq_ok_iff.1 ok
      obtain ⟨column, required, rest⟩ := Except.bind_eq_ok_iff.1 rest
      obtain rfl := planned_ok_eq_ok rest
      exact .dropColumn (ensureLive_eq_ok live) (require_eq_ok required)
  | renameColumn key name =>
      obtain ⟨_, live, rest⟩ := Except.bind_eq_ok_iff.1 ok
      obtain ⟨column, required, rest⟩ := Except.bind_eq_ok_iff.1 rest
      split at rest
      · cases rest
      · rename_i clash
        obtain rfl := planned_ok_eq_ok rest
        refine .renameColumn (ensureLive_eq_ok live) (require_eq_ok required) fun member => ?_
        obtain ⟨other, member, same⟩ := List.mem_map.1 member
        exact clash (List.any_eq_true.2 ⟨other, member, by simpa using same⟩)
  | addIndex key unique =>
      obtain ⟨_, live, rest⟩ := Except.bind_eq_ok_iff.1 ok
      obtain ⟨index, made, rest⟩ := Except.bind_eq_ok_iff.1 rest
      obtain ⟨column, found, rfl, fresh⟩ := newIndex_eq_ok made
      obtain rfl := planned_ok_eq_ok rest
      exact .addIndex (ensureLive_eq_ok live) found fresh
  | dropIndex name =>
      obtain ⟨_, live, rest⟩ := Except.bind_eq_ok_iff.1 ok
      split at rest
      · cases rest
      · rename_i index found
        obtain rfl := planned_ok_eq_ok rest
        exact .dropIndex (ensureLive_eq_ok live) found
  | define spec =>
      obtain ⟨defined, made, ended⟩ := Except.bind_eq_ok_iff.1 ok
      obtain rfl := Except.ok.inj ended
      obtain ⟨_, live, rest⟩ := Except.bind_eq_ok_iff.1 made
      split at rest
      · cases rest
      · rename_i absent
        obtain ⟨column, built, rfl, freshKey, freshName⟩ := addColumn_eq_ok rest
        exact .define (uncreated_of_live (ensureLive_eq_ok live) absent) built freshKey freshName
  | defineIndex key unique =>
      obtain ⟨indexed, declared, ended⟩ := Except.bind_eq_ok_iff.1 ok
      obtain rfl := Except.ok.inj ended
      obtain ⟨_, live, rest⟩ := Except.bind_eq_ok_iff.1 declared
      obtain ⟨index, made, ended⟩ := Except.bind_eq_ok_iff.1 rest
      obtain rfl := Except.ok.inj ended
      obtain ⟨column, found, rfl, fresh⟩ := newIndex_eq_ok made
      exact .defineIndex (ensureLive_eq_ok live) found fresh
  | reference near farTable far =>
      obtain ⟨referring, made, ended⟩ := Except.bind_eq_ok_iff.1 ok
      obtain rfl := Except.ok.inj ended
      obtain ⟨column, required, rest⟩ := Except.bind_eq_ok_iff.1 made
      obtain ⟨_, -, ended⟩ := Except.bind_eq_ok_iff.1 rest
      obtain rfl := Except.ok.inj ended
      exact .reference (require_eq_ok required)

/-- An operation that succeeds has carried its plan out. -/
theorem Operation.run_eq_ok {operation : Operation} (rooted : t.Rooted) {db db' : Database}
    (ran : operation.alteration.run (t, db) = (.ok (), t', db')) :
    ∃ plan, Planned db.workspace.dialect t operation plan ∧ t' = plan.after ∧
      ((plan.statements = none ∧ db' = db) ∨
        ∃ statements, plan.statements = some statements ∧
          Database.SchemaChanged db statements (.ok ()) db') := by
  rw [operation.run_eq rooted] at ran
  cases planned : operation.plan db.workspace.dialect t with
  | error cause =>
      rw [planned] at ran
      cases ran
  | ok plan =>
      refine ⟨plan, Operation.plan_eq_ok planned, ?_⟩
      rw [planned] at ran
      obtain ⟨statements, after⟩ := plan
      cases statements with
      | none =>
          cases ran
          exact ⟨rfl, .inl ⟨rfl, rfl⟩⟩
      | some statements =>
          have changed := Database.changeSchema_sound db statements
          simp only [runPlan, Plan.run] at ran
          generalize (Database.changeSchema statements).run db = served at ran changed
          rcases served with ⟨_ | _, _⟩
          · cases ran
          · cases ran
            exact ⟨rfl, .inr ⟨statements, rfl, changed⟩⟩

/-- A property that the plan of an operation keeps is kept whatever comes of the operation: one
that fails leaves the table as it is. -/
theorem Operation.run_keeps (operation : Operation) (rooted : t.Rooted) {P : Table → Prop}
    (before : P t) (db : Database)
    (after : ∀ {plan}, Planned db.workspace.dialect t operation plan → P plan.after) :
    P (operation.alteration.run (t, db)).2.1 := by
  rw [operation.run_eq rooted]
  cases planned : operation.plan db.workspace.dialect t with
  | error cause => exact before
  | ok plan =>
      have kept := after (Operation.plan_eq_ok planned)
      obtain ⟨statements, after⟩ := plan
      cases statements with
      | none => exact kept
      | some statements =>
          simp only [runPlan, Plan.run]
          rcases (Database.changeSchema statements).run db with ⟨_ | _, db'⟩
          · exact before
          · exact kept

/-! ## The place of a column -/

/-- The columns before and after the one of a key. -/
theorem exists_split {key : String} {column : Column} (found : t.column? key = some column) :
    ∃ before after, t.columns = before ++ column :: after ∧
      (∀ c ∈ before, c.key ≠ key) ∧ column.key = key := by
  obtain ⟨here, before, after, columns, others⟩ := List.find?_eq_some_iff_append.1 found
  exact ⟨before, after, columns, by simpa using others, by simpa using here⟩

theorem eraseP_split {key : String} {column : Column} {before after : List Column}
    (others : ∀ c ∈ before, c.key ≠ key) (here : column.key = key) :
    (before ++ column :: after).eraseP (fun c => c.key = key) = before ++ after := by
  rw [List.eraseP_append_right _ (by simpa using others), List.eraseP_cons_of_pos (by simpa)]

theorem updateColumn_split {change : Column → Column} {key : String} {column : Column}
    {before after : List Column} (others : ∀ c ∈ before, c.key ≠ key) (here : column.key = key) :
    updateColumn change key (before ++ column :: after) = before ++ change column :: after := by
  induction before with
  | nil => simp [updateColumn, here]
  | cons c before ih =>
      rw [List.forall_mem_cons] at others
      rw [List.cons_append, updateColumn, if_neg others.1, ih others.2, List.cons_append]

/-! ## Indices and references stay on columns -/

namespace Rooted

theorem new (d : Dialect) (name : String) : (Table.new d name).Rooted :=
  ⟨by simp [Table.new], by simp [Table.new]⟩

/-- Nothing but the columns, the indices and the references matters. -/
theorem of_eq (rooted : t.Rooted) (columns : t'.columns = t.columns)
    (indices : t'.indices = t.indices) (references : t'.references = t.references) :
    t'.Rooted := by
  constructor
  · rw [columns, indices]
    exact rooted.indices
  · rw [columns, references]
    exact rooted.references

theorem withColumn (rooted : t.Rooted) (column : Column) : (t.withColumn d column).Rooted := by
  have own : ∀ index ∈ keyIndices d t.name column, index.column = column.name := by
    unfold keyIndices
    split <;> simp [Index.onColumn]
  constructor
  · intro index member
    have names : (t.withColumn d column).columns.map Column.name =
        t.columns.map Column.name ++ [column.name] := List.map_append
    rw [names, List.mem_append, List.mem_singleton]
    rcases List.mem_append.1 member with old | new
    · exact .inl (rooted.indices index old)
    · exact .inr (own index new)
  · intro reference member
    have keys : (t.withColumn d column).columns.map Column.key =
        t.columns.map Column.key ++ [column.key] := List.map_append
    rw [keys, List.mem_append]
    exact .inl (rooted.references reference member)

theorem forgetColumn (rooted : t.Rooted) (key : String) : (t.forgetColumn key).Rooted := by
  unfold Table.forgetColumn
  cases found : t.column? key with
  | none => exact rooted
  | some column =>
      obtain ⟨before, after, columns, others, here⟩ := exists_split found
      dsimp only
      rw [columns, eraseP_split others here]
      constructor
      · intro index member
        obtain ⟨member, other⟩ := List.mem_filter.1 member
        have present := rooted.indices index member
        have other : index.column ≠ column.name := by simpa using other
        simpa [columns, other] using present
      · intro reference member
        obtain ⟨member, other⟩ := List.mem_filter.1 member
        have present := rooted.references reference member
        have other : reference.near ≠ column.key := by simpa [here] using other
        simpa [columns, other] using present

theorem columnRenamed (rooted : t.Rooted) {key : String} {column : Column}
    (found : t.column? key = some column) (name : String) :
    (t.columnRenamed d column name).Rooted := by
  obtain ⟨before, after, columns, others, here⟩ := exists_split found
  unfold Table.columnRenamed
  rw [here, columns, updateColumn_split others here]
  constructor
  · intro index known
    obtain ⟨old, member, rfl⟩ := List.mem_map.1 known
    have present := rooted.indices old member
    by_cases renamed : old.column = column.name
    · simp [renamed]
    · have elsewhere : old.column ∈ before.map Column.name ∨
          old.column ∈ after.map Column.name := by
        simpa [columns, renamed] using present
      rcases elsewhere with first | second
      · simpa [renamed] using Or.inl (List.mem_map.1 first)
      · simpa [renamed] using Or.inr (Or.inr (List.mem_map.1 second))
  · intro reference member
    have present := rooted.references reference member
    simpa [columns] using present

theorem withIndex (rooted : t.Rooted) {column : Column} (member : column ∈ t.columns)
    (unique : Bool) : (t.withIndex (.onColumn d t.name column.name unique)).Rooted := by
  refine ⟨fun index known => ?_, rooted.references⟩
  rcases List.mem_append.1 known with old | new
  · exact rooted.indices index old
  · rw [List.mem_singleton.1 new]
    exact List.mem_map_of_mem member

theorem renamed (rooted : t.Rooted) (name : String) : (t.renamed d name).Rooted := by
  refine ⟨fun index known => ?_, rooted.references⟩
  obtain ⟨old, member, rfl⟩ := List.mem_map.1 known
  exact rooted.indices old member

theorem retargeted (rooted : t.Rooted) (old new : String) : (t.retargeted old new).Rooted := by
  refine ⟨rooted.indices, fun reference known => ?_⟩
  obtain ⟨before, member, rfl⟩ := List.mem_map.1 known
  split <;> exact rooted.references before member

/-- Every operation keeps the indices and references on columns. -/
theorem plan {operation : Operation} {plan : Plan} (rooted : t.Rooted)
    (planned : Planned d t operation plan) : plan.after.Rooted := by
  cases planned with
  | create => exact rooted.of_eq rfl rfl rfl
  | drop => exact rooted.of_eq rfl rfl rfl
  | rename => exact rooted.renamed _
  | extend => exact rooted.withColumn _
  | dropColumn => exact rooted.forgetColumn _
  | renameColumn live found => exact rooted.columnRenamed found _
  | addIndex live found => exact rooted.withIndex (mem_of_column? found) _
  | dropIndex =>
      exact ⟨fun index member => rooted.indices index (List.mem_of_mem_eraseP member),
        rooted.references⟩
  | define => exact rooted.withColumn _
  | defineIndex live found => exact rooted.withIndex (mem_of_column? found) _
  | reference found =>
      refine ⟨rooted.indices, fun reference member => ?_⟩
      rcases List.mem_append.1 member with old | new
      · exact rooted.references reference old
      · rw [List.mem_singleton.1 new, ← key_of_column? found]
        exact List.mem_map_of_mem (mem_of_column? found)

/-- A table stays so, whatever comes of an operation. -/
theorem run (rooted : t.Rooted) (operation : Operation) (db : Database) :
    (operation.alteration.run (t, db)).2.1.Rooted :=
  operation.run_keeps rooted rooted db rooted.plan

/-! ## Tables from the catalog of a database -/

theorem takeColumn {row : List Cell} (rooted : t.Rooted)
    (taken : Discovery.takeColumn d t row = .ok t') : t'.Rooted := by
  obtain ⟨column, -, rest⟩ := Except.bind_eq_ok_iff.1 taken
  obtain ⟨made, defined, ended⟩ := Except.bind_eq_ok_iff.1 rest
  obtain rfl := Except.ok.inj ended
  have planned : (Operation.define column.spec).plan d t = .ok ⟨none, made⟩ := by
    rw [Operation.plan, defined]
    rfl
  have kept := rooted.plan (Operation.plan_eq_ok planned)
  have spec := complete_spec column
  constructor
  · rw [map_updateColumn Column.name fun c => (spec c).2.1]
    exact kept.indices
  · rw [map_updateColumn Column.key fun c => (spec c).1]
    exact kept.references

theorem takeColumns {rows : List (List Cell)} (rooted : t.Rooted)
    (taken : rows.foldlM (Discovery.takeColumn d) t = .ok t') : t'.Rooted := by
  induction rows generalizing t with
  | nil =>
      obtain rfl := Except.ok.inj taken
      exact rooted
  | cons row rows ih =>
      rw [List.foldlM_cons] at taken
      obtain ⟨between, first, rest⟩ := Except.bind_eq_ok_iff.1 taken
      exact ih (rooted.takeColumn first) rest

theorem attachIndex (rooted : t.Rooted) {index : Index}
    (known : index.column ∈ t.columns.map Column.name) : (t.attachIndex index).Rooted := by
  refine ⟨fun other member => ?_, rooted.references⟩
  rcases List.mem_append.1 member with old | new
  · exact rooted.indices other (List.mem_filter.1 old).1
  · rw [List.mem_singleton.1 new]
    exact known

theorem takeIndices {indices : List Index} {seen : List String} (rooted : t.Rooted)
    (taken : Discovery.takeIndices t seen indices = .ok t') : t'.Rooted := by
  induction indices generalizing t seen with
  | nil =>
      obtain rfl := Except.ok.inj taken
      exact rooted
  | cons index rest ih =>
      rw [Discovery.takeIndices] at taken
      split at taken
      · exact ih rooted taken
      · split at taken
        · cases taken
        · rename_i known
          refine ih (rooted.attachIndex ?_) taken
          simpa using known

theorem discoverTable {name : String} {db db' : Database}
    (discovered : (Discovery.discoverTable name).run db = (.ok t, db')) : t.Rooted := by
  obtain ⟨dialect, _, -, rest⟩ := ExceptT.run_bind_eq_ok_iff.1 discovered
  obtain ⟨columns, _, -, rest⟩ := ExceptT.run_bind_eq_ok_iff.1 rest
  obtain ⟨declared, _, taken, rest⟩ := ExceptT.run_bind_eq_ok_iff.1 rest
  rw [ExceptT.run_liftExcept] at taken
  have columnsRooted := (new dialect name).takeColumns (congrArg Prod.fst taken)
  split at rest
  · obtain rfl := Except.ok.inj (congrArg Prod.fst rest)
    exact columnsRooted.of_eq rfl rfl rfl
  · obtain ⟨indices, _, -, rest⟩ := ExceptT.run_bind_eq_ok_iff.1 rest
    obtain ⟨indexed, _, taken, rest⟩ := ExceptT.run_bind_eq_ok_iff.1 rest
    rw [ExceptT.run_liftExcept] at taken
    obtain rfl := Except.ok.inj (congrArg Prod.fst rest)
    exact (columnsRooted.takeIndices (congrArg Prod.fst taken)).of_eq rfl rfl rfl

end Rooted

/-- The tables that programs can have: declared or found in a database, and then altered by
any operations on any databases, whether these succeed or fail. -/
inductive Reached : Table → Prop
  | new (d : Dialect) (name : String) : Reached (new d name)
  | discover {name : String} {db db' : Database} {found : Table}
      (discovered : (Discovery.discoverTable name).run db = (.ok found, db')) : Reached found
  | operate {t : Table} (before : Reached t) (operation : Operation) (db : Database) :
      Reached (operation.alteration.run (t, db)).2.1
  | retarget {t : Table} (before : Reached t) (old new : String) : Reached (t.retargeted old new)

theorem Reached.rooted (reached : t.Reached) : t.Rooted := by
  induction reached with
  | new d name => exact .new d name
  | discover discovered => exact .discoverTable discovered
  | operate _ operation db ih => exact ih.run operation db
  | retarget _ old new ih => exact ih.retargeted old new

end RowQuery.Table
