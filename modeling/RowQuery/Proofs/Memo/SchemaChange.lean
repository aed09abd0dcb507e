import RowQuery.Dialect.Ansi
import RowQuery.Proofs.Memo.Certain
import RowQuery.Proofs.Memo.Growth
import RowQuery.Proofs.Table.Reached

/-!
# Restrictions and schema changes

What is remembered must not outlive the tables it was compiled over.  A change that goes
through the database empties the memo; one that only adds columns leaves every restriction as it
is; and a table is never taken for another as long as no two of them share a name.  What is left
are tables that are not in the database yet and lose columns or names there: these changes go
unnoticed, and the memo answers as before.
-/

namespace RowQuery

open RestrictionRequest

/-! ## What is asked for -/

/-- Two expressions that are asked for and printed alike have the same restriction on all
tables. -/
def Workspace.TellsApart (w : Workspace) (asked : Lambda → Arguments → Prop) : Prop :=
  ∀ r s : RestrictionRequest, asked r.e r.arguments → asked s.e s.arguments → r.Homographs s →
    ∀ found, r.afresh w = .ok found → s.afresh w = .ok found

namespace RestrictionRequest

/-- A request on some tables for an expression that is asked for. -/
structure Over (asked : Lambda → Arguments → Prop) (tables : List Table) (r : RestrictionRequest) :
    Prop where
  asks : asked r.e r.arguments
  inReach : ∀ b ∈ r.bindings, b.table ∈ tables

variable {w : Workspace} {asked : Lambda → Arguments → Prop} {tables tables' : List Table}
  {memo : Memo}

theorem exists_table_of_name (named : (tables.map Table.name).Nodup) :
    ∃ table : String → Table, ∀ t ∈ tables, t = table t.name := by
  refine ⟨fun name => (tables.find? fun t => t.name = name).getD ⟨name, name, [], [], [], .uncreated⟩,
    fun t member => ?_⟩
  cases found : tables.find? fun other => other.name = t.name with
  | none => exact absurd (List.find?_eq_none.1 found t member) (by simp)
  | some other =>
      have same : other.name = t.name := by simpa using List.find?_some found
      have equal := List.inj_on_of_nodup_map named (List.mem_of_find?_eq_some found) member same
      dsimp only
      rw [found]
      exact equal.symm

/-- Tables with different names are told apart by the keys. -/
theorem keysDecide_over (apart : w.TellsApart asked) (named : (tables.map Table.name).Nodup) :
    KeysDecide w (Over asked tables) := by
  obtain ⟨table, known⟩ := exists_table_of_name named
  intro r s rOver sOver sameKey found compiled
  have rKnown : ∀ b ∈ r.bindings, b.table = table b.table.name := fun b member =>
    known b.table (rOver.inReach b member)
  have sKnown : ∀ b ∈ s.bindings, b.table = table b.table.name := fun b member =>
    known b.table (sOver.inReach b member)
  rcases homographs_or_afresh_eq rKnown sKnown sameKey with alike | same
  · exact apart r s rOver.asks sOver.asks alike found compiled
  · rwa [← same]

theorem exists_grown {bindings : List Binding}
    (grown : ∀ b ∈ bindings, ∃ t' ∈ tables', b.table.GrowsTo t') :
    ∃ given, List.Forall₂ Binding.GrowsTo bindings given ∧ ∀ b ∈ given, b.table ∈ tables' := by
  induction bindings with
  | nil => exact ⟨[], .nil, by simp⟩
  | cons b bindings ih =>
      rw [List.forall_mem_cons] at grown
      obtain ⟨t', member, head⟩ := grown.1
      obtain ⟨given, tail, members⟩ := ih grown.2
      exact ⟨⟨b.label, t'⟩ :: given, .cons ⟨rfl, head⟩ tail, by simpa using ⟨member, members⟩⟩

theorem tables_of_grown {bindings given : List Binding}
    (grown : List.Forall₂ Binding.GrowsTo bindings given) :
    given.map (fun b => (b.label, b.table.name)) =
      bindings.map fun b => (b.label, b.table.name) := by
  induction grown with
  | nil => rfl
  | cons head _ ih => rw [List.map_cons, List.map_cons, head.label, head.table.name, ih]

/-- What is remembered stays right when tables grow. -/
theorem Remembers.grow (remembers : Remembers w (Over asked tables) memo)
    (grown : ∀ t ∈ tables, ∃ t' ∈ tables', t.GrowsTo t') :
    Remembers w (Over asked tables') memo := by
  intro entry member
  obtain ⟨r, inScope, sameKey, compiled⟩ := remembers entry member
  obtain ⟨given, larger, inReach⟩ := exists_grown fun b member =>
    grown b.table (inScope.inReach b member)
  refine ⟨⟨given, r.e, r.arguments⟩, ⟨inScope.asks, inReach⟩, ?_,
    w.compileRestriction_grown larger compiled⟩
  rw [← sameKey]
  exact congrArg (fun tables => MemoKey.make w.dialect r.e tables r.arguments)
    (tables_of_grown larger)

end RestrictionRequest

/-! ## Operations on tables -/

namespace Table

variable {d : Dialect} {t t' : Table} {db db' : Database}

/-- The operation takes no column and no name from a table that is only declared. -/
def Operation.Settled (t : Table) : Operation → Prop
  | .rename _ | .dropColumn _ | .renameColumn _ _ => t.state ≠ .uncreated
  | _ => True

theorem growsTo_withColumn (column : Column) : t.GrowsTo (t.withColumn d column) := by
  refine ⟨rfl, fun key found present => ?_⟩
  have first : t.columns.find? (fun c => c.key = key) = some found := present
  simp [column?, withColumn, List.find?_append, first]

theorem GrowsTo.of_columns (name : t'.name = t.name) (columns : t'.columns = t.columns) :
    t.GrowsTo t' := by
  refine ⟨name, fun key found present => ?_⟩
  rw [column?, columns]
  exact present

theorem issued_of_settled (settled : t.state ≠ .uncreated) (live : t.state ≠ .dropped)
    (statements : List String) : t.issued statements = some statements := by
  have created : t.isCreated = true := by
    cases state : t.state with
    | uncreated => exact absurd state settled
    | created => simp [isCreated, state]
    | dropped => exact absurd state live
  rw [issued, if_pos created]

/-- What is changed in a table that is only declared goes unnoticed: as long as its name is
the same, a restriction that is remembered is answered as before. -/
theorem answered_as_before {operation : Operation} (rooted : t.Rooted)
    (uncreated : t.state = .uncreated) (stays : operation ≠ .create)
    (ran : operation.alteration.run (t, db) = (.ok (), t', db')) (name : t'.name = t.name)
    {e : Lambda} {arguments : Arguments} {found : Restriction}
    (remembered : db.memo.find? (db.workspace.memoKey [.ofTable t] e arguments) = some found) :
    ((db'.workspace.restriction [.ofTable t'] e arguments).run (some db'.memo)).1 = .ok found := by
  have silent {statements : List String} : t.issued statements = none := by
    simp [issued, isCreated, uncreated]
  have sameKey : db.workspace.memoKey [.ofTable t'] e arguments =
      db.workspace.memoKey [.ofTable t] e arguments := by
    simp only [Workspace.memoKey, Binding.ofTable, List.map_cons, List.map_nil, name]
  obtain ⟨plan, planned, rfl, outcome⟩ := operation.run_eq_ok rooted ran
  have nothing : plan.statements = none := by
    cases planned <;> first | rfl | exact silent | exact absurd rfl stays
  obtain ⟨-, rfl⟩ : plan.statements = none ∧ db' = db := by
    rcases outcome with same | ⟨statements, issues, -⟩
    · exact same
    · rw [nothing] at issues
      cases issues
  change (db'.memo.fetch (db'.workspace.memoKey [.ofTable plan.after] e arguments) fun _ =>
    db'.workspace.compileRestriction [.ofTable plan.after] e arguments).1 = _
  rw [sameKey, Memo.fetch, remembered]

/-- What an operation does without the database is to let the table grow. -/
theorem growsTo_of_silent {operation : Operation} {plan : Plan}
    (planned : Planned d t operation plan) (settled : operation.Settled t)
    (silent : plan.statements = none) : t.GrowsTo plan.after := by
  cases planned with
  | create => cases silent
  | drop => exact .of_columns rfl rfl
  | rename live => simp [issued_of_settled settled live] at silent
  | extend => exact growsTo_withColumn _
  | dropColumn live => simp [issued_of_settled settled live] at silent
  | renameColumn live => simp [issued_of_settled settled live] at silent
  | addIndex => exact .of_columns rfl rfl
  | dropIndex => exact .of_columns rfl rfl
  | define => exact growsTo_withColumn _
  | defineIndex => exact .of_columns rfl rfl
  | reference => exact .of_columns rfl rfl

/-- An operation lets the table grow, or nothing is remembered afterwards. -/
theorem Operation.grows_or_forgets {operation : Operation} (rooted : t.Rooted)
    (settled : operation.Settled t) (db : Database) :
    let ran := operation.alteration.run (t, db)
    ran.2.2.workspace = db.workspace ∧
      (t.GrowsTo ran.2.1 ∧ ran.2.2.memo = db.memo ∨ ran.2.2.memo.entries = []) := by
  dsimp only
  rw [operation.run_eq rooted]
  cases planned : operation.plan db.workspace.dialect t with
  | error cause => exact ⟨rfl, .inl ⟨.refl t, rfl⟩⟩
  | ok plan =>
      have grows := growsTo_of_silent (Operation.plan_eq_ok planned) settled
      obtain ⟨statements, after⟩ := plan
      cases statements with
      | none => exact ⟨rfl, .inl ⟨grows rfl, rfl⟩⟩
      | some statements =>
          have changed := Database.changeSchema_sound db statements
          simp only [runPlan, Plan.run]
          generalize (Database.changeSchema statements).run db = served at changed ⊢
          obtain ⟨outcome, db'⟩ := served
          refine ⟨?_, ?_⟩
          · cases outcome <;> exact changed.workspace
          · cases outcome with
            | error cause => exact .inl ⟨.refl t, changed.keeps cause rfl⟩
            | ok _ =>
                refine .inr ?_
                have cleared : db'.memo = db.memo.clear := changed.forgets rfl
                simp [cleared, Memo.clear]

end Table

/-! ## Runs -/

/-- The actions that read and change rows of some tables, for expressions that are asked for.
A write that goes row by row asks for the keys of the rows that it finds. -/
inductive RowAction (asked : Lambda → Arguments → Prop) (tables : List Table) (db : Database) :
    {α : Type} → Action α → Prop
  | restriction {bindings e arguments} (inReach : ∀ b ∈ bindings, b.table ∈ tables)
      (asks : asked e arguments) :
      RowAction asked tables db (Action.write fun w => w.restriction bindings e arguments)
  | statement {q : Query} (inReach : ∀ t ∈ q.relation.tables, t ∈ tables)
      (asks : ∀ e ∈ q.restriction, asked e q.arguments)
      (asksPaths : ∀ e ∈ q.relation.paths, asked e q.arguments) :
      RowAction asked tables db (Database.selectStatement q)
  | select {q : Query} (inReach : ∀ t ∈ q.relation.tables, t ∈ tables)
      (asks : ∀ e ∈ q.restriction, asked e q.arguments)
      (asksPaths : ∀ e ∈ q.relation.paths, asked e q.arguments) :
      RowAction asked tables db (Database.select q)
  | selectFirst {t : Table} {restriction arguments} (inReach : t ∈ tables)
      (asks : ∀ e ∈ restriction, asked e arguments) :
      RowAction asked tables db (t.selectFirst restriction arguments)
  | save {t : Table} {row} (inReach : t ∈ tables)
      (asks : ∀ key, t.keyRestriction row = .ok key → asked key []) :
      RowAction asked tables db (t.save row)
  | delete {t : Table} {row} (inReach : t ∈ tables)
      (asks : ∀ key, t.keyRestriction row = .ok key → asked key []) :
      RowAction asked tables db (t.delete row)
  | bulk (write : BulkWrite) {t : Table} {restriction arguments} (inReach : t ∈ tables)
      (asks : ∀ e ∈ restriction, asked e arguments)
      (asksKeys : ∀ rows, ((t.selectAll restriction arguments).run db.forgetting).1 = .ok rows →
        ∀ row ∈ rows, ∀ key, t.keyRestriction row = .ok key →
          asked key (write.keyArguments arguments)) :
      RowAction asked tables db (write.action t restriction arguments)

/-- What a database and the tables of a program come to.  Rows are read and changed, tables are
operated on, whether that succeeds or not, new ones are declared and those that were dropped from
the database let go of; transactions come and go in between. -/
inductive Database.Used (w : Workspace) (asked : Lambda → Arguments → Prop) :
    List Table → Database → Prop
  | start {tables db} (workspace : db.workspace = w) (forgotten : db.memo.entries = [])
      (rooted : ∀ t ∈ tables, t.Rooted) (named : (tables.map Table.name).Nodup) :
      Used w asked tables db
  | act {tables db} (before : Used w asked tables db) {α : Type} {action : Action α}
      (rows : RowAction asked tables db action) : Used w asked tables (action.run db).2
  | operate {front t back db t' db' outcome} (before : Used w asked (front ++ t :: back) db)
      (operation : Table.Operation) (settled : operation.Settled t)
      (ran : operation.alteration.run (t, db) = (outcome, t', db'))
      (named : ((front ++ t' :: back).map Table.name).Nodup) :
      Used w asked (front ++ t' :: back) db'
  | declare {tables db t} (before : Used w asked tables db) (rooted : t.Rooted)
      (fresh : t.name ∉ tables.map Table.name) : Used w asked (t :: tables) db
  | letGo {front t back db t' db'} (before : Used w asked (front ++ t :: back) db)
      (created : t.isCreated = true)
      (dropped : Alteration.drop.run (t, db) = (.ok (), t', db')) :
      Used w asked (front ++ back) db'
  | serve {tables db} (before : Used w asked tables db) (strict : Bool) (recorder : Recorder)
      (transaction : Option Connection) (schemaLocked : Bool) :
      Used w asked tables { db with strict, recorder, transaction, schemaLocked }

variable {w : Workspace} {asked : Lambda → Arguments → Prop} {tables : List Table} {db : Database}

theorem RowAction.certain {α : Type} {action : Action α} (same : db.workspace = w)
    (decided : KeysDecide w (Over asked tables)) (rows : RowAction asked tables db action) :
    action.Certain w (Over asked tables) db := by
  have covers {e : Lambda} {arguments : Arguments} (asks : asked e arguments) :
      Workspace.Covers (Over asked tables) (· ∈ tables) arguments e := fun _ inReach =>
    ⟨asks, inReach⟩
  cases rows with
  | @restriction bindings e arguments inReach asks =>
      have inSet := covers asks bindings inReach
      exact Action.certain_write same (Memoized.certain_restriction decided inSet)
  | statement inReach asks asksPaths =>
      exact Database.certain_selectStatement same decided inReach
        (fun e member => covers (asks e member)) fun e member => covers (asksPaths e member)
  | select inReach asks asksPaths =>
      exact Database.certain_select same decided inReach
        (fun e member => covers (asks e member)) fun e member => covers (asksPaths e member)
  | selectFirst inReach asks =>
      exact Table.certain_selectFirst same decided inReach fun e member => covers (asks e member)
  | save inReach asks =>
      exact Table.certain_save same decided inReach fun key made => covers (asks key made)
  | delete inReach asks =>
      exact Table.certain_delete same decided inReach fun key made => covers (asks key made)
  | bulk write inReach asks asksKeys =>
      exact BulkWrite.certain_action same decided inReach write
        (fun e member => covers (asks e member))
        fun rows fetched row member key made => covers (asksKeys rows fetched row member key made)

/-- What holds of a database and its tables at any time. -/
structure Database.Current (w : Workspace) (asked : Lambda → Arguments → Prop)
    (tables : List Table) (db : Database) : Prop where
  workspace : db.workspace = w
  rooted : ∀ t ∈ tables, t.Rooted
  named : (tables.map Table.name).Nodup
  remembers : Remembers w (Over asked tables) db.memo

theorem Database.Used.current (apart : w.TellsApart asked) (used : Used w asked tables db) :
    Current w asked tables db := by
  induction used with
  | start workspace forgotten rooted named =>
      exact ⟨workspace, rooted, named, by simp [Remembers, forgotten]⟩
  | @act tables db _ _ action rows ih =>
      have decided := keysDecide_over apart ih.named
      obtain ⟨outcome, after, led⟩ := rows.certain ih.workspace decided
      obtain ⟨memo, run, remembers⟩ := led.run db.memo ih.remembers
      have run : action.run db = (outcome, { after with memo }) := run
      rw [run]
      exact ⟨led.workspace, ih.rooted, ih.named, remembers⟩
  | @operate front t back db t' db' outcome _ operation settled ran named ih =>
      have rooted := ih.rooted t (by simp)
      have rooted' := rooted.run operation db
      have effect := operation.grows_or_forgets rooted settled db
      rw [ran] at rooted' effect
      refine ⟨effect.1.trans ih.workspace, ?_, named, ?_⟩
      · have others := ih.rooted
        simp only [List.forall_mem_append, List.forall_mem_cons] at others ⊢
        exact ⟨others.1, rooted', others.2.2⟩
      · rcases effect.2 with ⟨grown, memo⟩ | forgotten
        · have memo : db'.memo = db.memo := memo
          rw [memo]
          refine ih.remembers.grow fun other member => ?_
          simp only [List.mem_append, List.mem_cons] at member ⊢
          rcases member with before | rfl | behind
          · exact ⟨other, .inl before, .refl other⟩
          · exact ⟨t', .inr (.inl rfl), grown⟩
          · exact ⟨other, .inr (.inr behind), .refl other⟩
        · have forgotten : db'.memo.entries = [] := forgotten
          simp [Remembers, forgotten]
  | declare _ rooted fresh ih =>
      refine ⟨ih.workspace, ?_, ?_, ?_⟩
      · simpa using ⟨rooted, ih.rooted⟩
      · simpa using ⟨by simpa using fresh, ih.named⟩
      · exact ih.remembers.grow fun t member => ⟨t, by simp [member], .refl t⟩
  | @letGo front t back db t' db' _ created dropped ih =>
      have rooted := ih.rooted t (by simp)
      have ran : Table.Operation.drop.alteration.run (t, db) = (.ok (), t', db') := dropped
      obtain ⟨plan, planned, -, outcome⟩ := Table.Operation.run_eq_ok rooted ran
      obtain ⟨statements, -, changed⟩ : ∃ statements, plan.statements = some statements ∧
          db.SchemaChanged statements (.ok ()) db' := by
        rcases outcome with ⟨silent, -⟩ | changed
        · cases planned
          simp [Table.issued, created] at silent
        · exact changed
      have cleared : db'.memo = db.memo.clear := changed.forgets rfl
      have sublist : (front ++ back).Sublist (front ++ t :: back) :=
        (List.Sublist.refl front).append (List.sublist_cons_self t back)
      refine ⟨changed.workspace.trans ih.workspace, fun other member =>
        ih.rooted other (sublist.subset member), ih.named.sublist (sublist.map _), ?_⟩
      simp [cleared, Remembers, Memo.clear]
  | serve _ _ _ _ _ ih => exact ⟨ih.workspace, ih.rooted, ih.named, ih.remembers⟩

/-- No restriction outlives the tables it was compiled over.  Whatever a program has done with a
database and its tables, each restriction on the tables as they are is answered as if it were
compiled afresh, and each action on their rows ends as it does on a database with nothing
remembered, with the same statements run; unless a table that is only declared has lost a column
or a name, two tables share a name, or two expressions that differ are printed alike. -/
theorem Database.Used.restrictions_are_current (apart : w.TellsApart asked)
    (used : Used w asked tables db) :
    (∀ r : RestrictionRequest, r.Over asked tables →
      ((w.restriction r.bindings r.e r.arguments).run (some db.memo)).1 = r.afresh w) ∧
    ∀ {α : Type} {action : Action α}, RowAction asked tables db action →
      (action.run db).1 = (action.run db.forgetting).1 ∧
        ∃ memo, (action.run db).2 = { (action.run db.forgetting).2 with memo } := by
  have current := used.current apart
  have decided := keysDecide_over apart current.named
  constructor
  · intro r inScope
    obtain ⟨memo, run, -⟩ := Memoized.yields_restriction decided inScope db.memo current.remembers
    rw [run]
  · intro α action rows
    obtain ⟨outcome, after, led⟩ := rows.certain current.workspace decided
    obtain ⟨memo, run, -⟩ := led.run db.memo current.remembers
    obtain ⟨memo', run', -⟩ := led.run db.memo.clear (remembers_clear db.memo)
    have run : action.run db = (outcome, { after with memo }) := run
    have run' : action.run db.forgetting = (outcome, { after with memo := memo' }) := run'
    rw [run, run']
    exact ⟨rfl, memo, rfl⟩

section Ledger

/-- The rows with number one. -/
def isOne : Lambda :=
  ⟨["t"], .compare (.field (.param 0) "n") .eq (.constant (.int 1)), by decide⟩

/-- A database in which nothing has happened yet. -/
def ledger : Database where
  workspace := { dialect := .ansi, functions := {} }

/-- Just one expression is asked for. -/
def asksOne (e : Lambda) (arguments : Arguments) : Prop :=
  e = isOne ∧ arguments = []

theorem tellsApart_asksOne (w : Workspace) : w.TellsApart asksOne := by
  intro r s rAsked sAsked alike
  have occurs := (alike.different (rAsked.1.trans sAsked.1.symm)).1
  rw [rAsked.1] at occurs
  exact absurd occurs (by decide)

theorem Database.Used.then_operate {t : Table} (before : Used w asked [t] db)
    (operation : Table.Operation) (settled : operation.Settled t) :
    Used w asked [(operation.alteration.run (t, db)).2.1] (operation.alteration.run (t, db)).2.2 :=
  @Used.operate w asked [] t [] db _ _ _ before operation settled rfl (by simp)

/-- The statement for rows is written before the table gets another column, before it is
created and after its column has another name there. -/
theorem ledger_is_current :
    ∃ t db, Database.Used ledger.workspace asksOne [t] db ∧
      db.record =
        ["SELECT \"n\" FROM \"t\" WHERE \"n\" = 1",
          "SELECT \"n\", \"m\" FROM \"t\" WHERE \"n\" = 1",
          "CREATE TABLE \"t\" (\"n\" INTEGER, \"m\" INTEGER)",
          "ALTER TABLE \"t\" RENAME COLUMN \"n\" TO \"number\""] ∧
      ((ledger.workspace.restriction [.ofTable t] isOne []).run (some db.memo)).1 =
        .ok ⟨"\"number\" = 1", true⟩ := by
  have rows (t : Table) (db : Database) :
      RowAction asksOne [t] db (Database.select (t.query (some isOne) [])) :=
    .select (by simp [Table.query, Relation.tables])
      (by simp [Table.query, asksOne]) (by simp [Table.query, Relation.paths])
  have declared := (@Database.Used.start ledger.workspace asksOne [Table.new .ansi "t"] ledger rfl
    rfl (by simpa using Table.Rooted.new .ansi "t") (by simp)).then_operate
      (.define { key := "n", kind := .int }) trivial
  have read := declared.act (rows _ _)
  have larger := read.then_operate (.define { key := "m", kind := .int }) trivial
  have created := (larger.act (rows _ _)).then_operate .create trivial
  have renamed := created.then_operate (.renameColumn "n" "number")
    (show _ ≠ TableState.uncreated by decide +kernel)
  refine ⟨_, _, renamed, by decide +kernel, ?_⟩
  obtain ⟨answered, -⟩ := renamed.restrictions_are_current (tellsApart_asksOne _)
  refine (answered ⟨[.ofTable _], isOne, []⟩ ⟨⟨rfl, rfl⟩, by simp [Binding.ofTable]⟩).trans ?_
  decide +kernel

end Ledger

end RowQuery
