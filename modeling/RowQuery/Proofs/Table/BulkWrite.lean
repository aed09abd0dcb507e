import RowQuery.Proofs.Database.Refilter
import RowQuery.Proofs.Database.Running
import RowQuery.Proofs.Table.WriteStatement

/-!
# Writes to many rows

A change or a deletion of all rows that a restriction accepts.  A restriction with an exact SQL
form goes into one statement.  Any other is only used to fetch the rows; those that it accepts
are written one by one, by their keys, and all statements are made before the first of them runs.
What can go wrong is that the memo answers for the key of one row with that of another, which
is why the requests of a write must not be printed alike by accident.
-/

namespace RowQuery

section Fetching

variable (w : Workspace) (t : Table) (e : Lambda) (arguments : Arguments)

theorem Relation.bindings_table : (Relation.table t).bindings = [.ofTable t] :=
  rfl

theorem Memoized.liftM_ok {α : Type} (a : α) :
    (liftM (Except.ok a : Outcome α) : Memoized α) = pure a :=
  rfl

/-- The statement that fetches the rows of a table under a compiled restriction. -/
def Table.fetching (t : Table) (w : Workspace) (found : Restriction) : CompiledQuery :=
  let selection := w.columnSelection [.ofTable t] (Workspace.allColumns [.ofTable t])
  { sql := spaced (["SELECT", Text.join ", " selection.fields,
        "FROM " ++ w.tableText (.ofTable t)] ++ w.whereClause found.sql ++
        w.limitClause (t.query none []))
    exact := found.exact
    columns := selection.columns }

variable {w t e arguments} {memo memo' : Option Memo} {found : Restriction}

/-- The rows are fetched, unless a strict database refuses a restriction that is not exact. -/
theorem Table.select_run (strict : Bool)
    (answered : (w.restriction [.ofTable t] e arguments).run memo = (.ok found, memo')) :
    ∃ fault, (w.select strict (t.query (some e) arguments)).run memo =
      (if (strict && !found.exact) = true then .error fault else .ok (t.fetching w found), memo') := by
  simp only [Workspace.select, Option.isSome_none, Bool.and_false, Bool.false_eq_true, if_false,
    Table.query, Relation.bindings_table, Workspace.relationText, Workspace.selection, pure_bind,
    Memoized.liftM_ok, Workspace.queryRestriction, Workspace.orderClause, bind_assoc,
    Workspace.topClause]
  rw [ExceptT.run_bind_eq, answered]
  obtain ⟨sql, exactness⟩ := found
  have clauses (front clause limit : List String) :
      spaced (front ++ clause ++ [] ++ [] ++ limit) = spaced (front ++ clause ++ limit) := by simp
  rw [Table.fetching, ← clauses]
  refine ⟨.inexact ("restriction " ++ e.toText ++ " is not exactly representable in SQL, which " ++
    "strict mode" ++ " requires"), ?_⟩
  cases strict <;> cases exactness <;> rfl

end Fetching

namespace BulkWrite

variable (write : BulkWrite) {t : Table} {e : Lambda} {arguments : Arguments} {db : Database}
  {found : Restriction}

theorem action_eq : write.action t (some e) arguments = (do
    if ← t.isInexact (some e) arguments then
      let rows ← t.fallbackRows (some e) arguments write.keyword
      let statements ← t.statementsByKey
        (fun key w => write.statement w t (some key) (write.keyArguments arguments)) rows
      Table.executeAllCounting statements
    else
      let sql ← Action.write fun w => write.statement w t (some e) arguments
      Table.executeCounting sql) := by
  cases write <;> rfl

/-- Unless the restriction is found to be inexact, the statement under it runs, if it can be
written. -/
theorem action_run_of_direct (forgotten : db.memo.entries = [])
    (direct : ((request t e arguments).afresh db.workspace).toOption.any
      (fun found => !found.exact) = false) :
    ∃ memo, (write.action t (some e) arguments).run db =
      match write.afresh db.workspace t e arguments with
      | .error fault => (.error fault, { db with memo })
      | .ok sql => (Table.executeCounting sql).run { db with memo } := by
  obtain ⟨memo, looked, asked⟩ := isInexact_run forgotten
  obtain ⟨memo', answer, -⟩ := asked.fetch
  rw [action_eq, ExceptT.run_bind_eq, looked, direct]
  simp only [Bool.false_eq_true, if_false]
  rw [ExceptT.run_bind_eq, write_run, afresh]
  dsimp only
  rw [answer]
  cases write.front db.workspace t arguments with
  | error fault => exact ⟨_, rfl⟩
  | ok front =>
      refine ⟨memo', ?_⟩
      cases (request t e arguments).afresh db.workspace with
      | error fault => rfl
      | ok found =>
          obtain ⟨sql, exactness⟩ := found
          cases exactness <;> rfl

/-- The requests to the memo that a write row by row makes. -/
def Requests (write : BulkWrite) (t : Table) (e : Lambda) (arguments : Arguments)
    (rows : List Row) (r : RestrictionRequest) : Prop :=
  r = request t e arguments ∨ ∃ row ∈ rows, ∃ key, t.keyRestriction row = .ok key ∧
    r = request t key (write.keyArguments arguments)

/-- Requests of the write that are only printed alike share their restriction. -/
def Unambiguous (write : BulkWrite) (w : Workspace) (t : Table) (e : Lambda)
    (arguments : Arguments) (rows : List Row) : Prop :=
  ∀ r s, write.Requests t e arguments rows r → write.Requests t e arguments rows s →
    r.Homographs s → ∀ found, r.afresh w = .ok found → s.afresh w = .ok found

theorem Unambiguous.keysDecide {w : Workspace} {rows : List Row}
    (unambiguous : write.Unambiguous w t e arguments rows) :
    RestrictionRequest.KeysDecide w (write.Requests t e arguments rows) := by
  let table : String → Table := fun _ => t
  have named (r) (inSet : write.Requests t e arguments rows r) :
      ∀ b ∈ r.bindings, b.table = table b.table.name := by
    rcases inSet with rfl | ⟨row, -, key, -, rfl⟩ <;> simp [request, Binding.ofTable, table]
  intro r s rInSet sInSet sameKey found compiled
  rcases RestrictionRequest.homographs_or_afresh_eq (named r rInSet) (named s sInSet) sameKey with
    alike | same
  · exact unambiguous r s rInSet sInSet alike found compiled
  · rwa [← same]

theorem selectStatement_run {memo : Memo} (asked : Asked db (request t e arguments) memo)
    (compiled : (request t e arguments).afresh db.workspace = .ok found) :
    ∃ fault memo',
      (Database.selectStatement (t.query (some e) arguments)).run { db with memo } =
        (if (db.strict && !found.exact) = true then .error fault
          else .ok (t.fetching db.workspace found), { db with memo := memo' }) ∧
      Asked db (request t e arguments) memo' := by
  obtain ⟨memo', answered, asked⟩ := asked.restriction_run
  rw [compiled] at answered
  obtain ⟨fault, selected⟩ := Table.select_run db.strict answered
  refine ⟨fault, memo', ?_, asked⟩
  change (match (db.workspace.select db.strict (t.query (some e) arguments)).run (some memo) with
    | (outcome, memo') => (outcome, { db with memo := memo'.getD memo })) = _
  rw [selected]
  rfl

/-- The rows that a restriction accepts among those that the database returns. -/
def accepted (w : Workspace) (t : Table) (e : Lambda) (arguments : Arguments)
    (found : Restriction) (response : Response) : Outcome (List Row) := do
  let rows ← response.rows.mapM (t.fetching w found).decodeRow
  Database.refilter w.functions e (t.query (some e) arguments) (t.fetching w found) rows

theorem fallbackRows_barred {memo : Memo} (asked : Asked db (request t e arguments) memo)
    (compiled : (request t e arguments).afresh db.workspace = .ok found)
    (inexact : found.exact = false) (barred : t.keyColumns = [] ∨ db.strict = true)
    (keyword : String) :
    ∃ fault memo', (t.fallbackRows (some e) arguments keyword).run { db with memo } =
      (.error fault, { db with memo := memo' }) := by
  rw [Table.fallbackRows]
  by_cases keyless : t.keyColumns.isEmpty = true
  · rw [if_pos keyless]
    exact ⟨_, memo, rfl⟩
  · have strict := barred.resolve_left (by simpa using keyless)
    obtain ⟨fault, memo', refused, -⟩ := selectStatement_run asked compiled
    rw [if_pos (by rw [strict, inexact]; rfl)] at refused
    rw [if_neg keyless, Table.selectAll, Database.select, ExceptT.run_bind_eq, refused]
    exact ⟨fault, memo', rfl⟩

theorem fallbackRows_run {memo : Memo} (asked : Asked db (request t e arguments) memo)
    (compiled : (request t e arguments).afresh db.workspace = .ok found)
    (inexact : found.exact = false) (keyed : t.keyColumns ≠ []) (lenient : db.strict = false)
    (keyword : String) :
    let served := (Database.execute (t.fetching db.workspace found).sql).run db
    ∃ memo', (t.fallbackRows (some e) arguments keyword).run { db with memo } =
        (served.1 >>= accepted db.workspace t e arguments found,
          { served.2 with memo := memo' }) ∧
      Asked db (request t e arguments) memo' := by
  obtain ⟨_, memo', selected, asked⟩ := selectStatement_run asked compiled
  rw [if_neg (by simp [lenient])] at selected
  have replied := db.execute_run_with_memo (t.fetching db.workspace found).sql memo'
  refine ⟨memo', ?_, asked⟩
  rw [Table.fallbackRows, if_neg (by simpa using keyed), Table.selectAll]
  cases served : (Database.execute (t.fetching db.workspace found).sql).run db with
  | mk answer after =>
      rw [served] at replied
      cases answer with
      | ok response => exact Database.select_run_of_inexact rfl rfl selected inexact replied
      | error fault =>
          have allowed : ¬(!(t.fetching db.workspace found).exact &&
              !Database.selectsAll (t.query (some e) arguments).projection) = true := by
            simp [Table.query, Database.selectsAll]
          rw [Database.select, ExceptT.run_bind_of_ok selected, if_neg allowed,
            ExceptT.run_bind_eq, replied]
          rfl

/-- With a restriction that is not exact nothing runs unless there is a key, and the database
is not strict. -/
theorem action_run_of_barred (forgotten : db.memo.entries = [])
    (compiled : (request t e arguments).afresh db.workspace = .ok found)
    (inexact : found.exact = false) (barred : t.keyColumns = [] ∨ db.strict = true) :
    ∃ fault memo,
      (write.action t (some e) arguments).run db = (.error fault, { db with memo }) := by
  obtain ⟨memo, looked, asked⟩ := isInexact_run forgotten
  obtain ⟨fault, memo', refused⟩ :=
    fallbackRows_barred asked compiled inexact barred write.keyword
  rw [action_eq, ExceptT.run_bind_eq, looked, compiled]
  simp only [Except.toOption, Option.any_some, inexact, Bool.not_false, if_true]
  rw [ExceptT.run_bind_eq, refused]
  exact ⟨fault, memo', rfl⟩

/-- Otherwise the statements for all rows are written before the first of them runs. -/
theorem action_run_of_inexact (forgotten : db.memo.entries = [])
    (compiled : (request t e arguments).afresh db.workspace = .ok found)
    (inexact : found.exact = false) (keyed : t.keyColumns ≠ []) (lenient : db.strict = false) :
    let served := (Database.execute (t.fetching db.workspace found).sql).run db
    ∃ plan memo,
      (write.action t (some e) arguments).run db =
        (match plan with
        | .error fault => (.error fault, { served.2 with memo })
        | .ok sqls => (Table.executeAllCounting sqls).run { served.2 with memo }) ∧
      ∀ rows, served.1 >>= accepted db.workspace t e arguments found = rows →
        (∀ fault, rows = .error fault → plan = .error fault) ∧
        ∀ kept, rows = .ok kept →
          (∀ sqls, plan = .ok sqls →
            ∀ row ∈ kept, write.Prepared db.workspace t arguments row) ∧
          (write.Unambiguous db.workspace t e arguments kept →
            plan = kept.mapM (write.rowStatement db.workspace t arguments)) := by
  obtain ⟨memo, looked, asked⟩ := isInexact_run forgotten
  obtain ⟨memo', fetched, asked⟩ :=
    fallbackRows_run asked compiled inexact keyed lenient write.keyword
  rw [action_eq, ExceptT.run_bind_eq, looked, compiled]
  simp only [Except.toOption, Option.any_some, inexact, Bool.not_false, if_true]
  have workspace := Database.keepsWorkspace_execute (t.fetching db.workspace found).sql db
  rw [ExceptT.run_bind_eq, fetched]
  cases rows : ((Database.execute (t.fetching db.workspace found).sql).run db).1 >>=
      accepted db.workspace t e arguments found with
  | error fault =>
      refine ⟨.error fault, memo', rfl, ?_⟩
      rintro _ rfl
      constructor
      · rintro _ ⟨⟩
        rfl
      · rintro _ ⟨⟩
  | ok kept =>
      obtain ⟨plan, memo'', written, prepared, spec⟩ := write.statementsByKey_run t arguments kept
        { ((Database.execute (t.fetching db.workspace found).sql).run db).2 with memo := memo' }
      dsimp only at prepared spec
      rw [workspace] at prepared spec
      refine ⟨plan, memo'', ?_, ?_⟩
      · dsimp only
        rw [ExceptT.run_bind_eq, written]
        cases plan <;> rfl
      · rintro _ rfl
        constructor
        · rintro _ ⟨⟩
        · rintro _ ⟨⟩
          refine ⟨prepared, fun unambiguous => ?_⟩
          have decided := unambiguous.keysDecide
          have right := asked.right _ decided (.inl rfl)
          exact spec _ decided right fun row member key made => .inr ⟨row, member, key, made, rfl⟩

end BulkWrite

namespace Action

variable {α : Type}

/-- An action runs just these statements. -/
def Ran (action : Action α) (db : Database) (sqls : List String) : Prop :=
  ∃ ran, (action.run db).2.recorder.executed = db.recorder.executed ++ ran ∧
    ran.map Executed.sql = sqls

/-- An action fails, having run just these statements. -/
def Fails (action : Action α) (db : Database) (sqls : List String) : Prop :=
  (∃ fault, (action.run db).1 = .error fault) ∧ action.Ran db sqls

theorem fails_of_run {action : Action α} {db after : Database} {fault : Fault} {sqls : List String}
    {ran : List Executed} (run : action.run db = (.error fault, after))
    (executed : after.recorder.executed = db.recorder.executed ++ ran)
    (same : ran.map Executed.sql = sqls) : action.Fails db sqls := by
  refine ⟨⟨fault, by rw [run]⟩, ran, ?_, same⟩
  rw [run]
  exact executed

end Action

namespace Table

open Database

theorem executed_execute (db : Database) (sql : String) :
    ∃ c, ((execute sql).run db).2.recorder.executed = db.recorder.executed ++ [⟨c, sql⟩] := by
  obtain ⟨recorder, taken, c, n, after, went, -⟩ := db.went_executeAll [sql]
  rw [execute_run, after]
  exact ⟨c, by simpa using went.executed⟩

theorem executed_executeCounting (db : Database) (sql : String) :
    ∃ c, ((executeCounting sql).run db).2.recorder.executed =
      db.recorder.executed ++ [⟨c, sql⟩] := by
  obtain ⟨c, executed⟩ := executed_execute db sql
  refine ⟨c, ?_⟩
  rw [executeCounting, ExceptT.run_bind_eq, ← executed]
  cases (execute sql).run db with
  | mk outcome after => cases outcome <;> rfl

theorem executed_executeAllCounting (db : Database) (sqls : List String) :
    ∃ c n, ((executeAllCounting sqls).run db).2.recorder.executed =
        db.recorder.executed ++ (sqls.take n).map (Executed.mk c) ∧
      (((executeAllCounting sqls).run db).1.isOk = true → sqls.length ≤ n) := by
  rw [executeAllCounting]
  by_cases empty : sqls.isEmpty = true
  · rw [if_pos empty]
    exact ⟨0, 0, (List.append_nil _).symm, fun _ => by simpa using empty⟩
  · obtain ⟨recorder, taken, c, n, after, went, -, all⟩ := db.went_executeAll sqls
    rw [if_neg empty, ExceptT.run_bind_eq]
    refine ⟨c, n + 1, ?_⟩
    rw [← went.executed]
    cases ran : (executeAll sqls).run db with
    | mk outcome after' =>
        obtain rfl : after' = { db with recorder } := by rw [← after, ran]
        rw [ran] at all
        cases outcome with
        | error fault => exact ⟨rfl, nofun⟩
        | ok responses => exact ⟨rfl, fun _ => all rfl⟩

end Table

namespace BulkWrite

variable {w : Workspace} {t : Table} {e : Lambda} {arguments : Arguments}

/-- The statement for a row, which has an exact SQL form: it equates each key column with the
value of the row. -/
def WritesRow (write : BulkWrite) (w : Workspace) (t : Table) (arguments : Arguments) (row : Row)
    (sql : String) : Prop :=
  ∃ front key equations,
    write.front w t (write.keyArguments arguments) = .ok front ∧
      t.keyRestriction row = .ok key ∧
      (request t key (write.keyArguments arguments)).afresh w =
        .ok ⟨Shape.joined " AND " equations, true⟩ ∧
      List.Forall₂ (Column.Equation w.dialect row) t.keyColumns equations ∧
      sql = spaced (front ++ ["WHERE " ++ Shape.joined " AND " equations])

theorem whereClause_of_equations {d : BuiltinDialect} (dialect : w.dialect = d.dialect) {row : Row}
    {columns : List Column} {equations : List String}
    (each : List.Forall₂ (Column.Equation w.dialect row) columns equations) :
    w.whereClause (Shape.joined " AND " equations) =
      ["WHERE " ++ Shape.joined " AND " equations] := by
  rw [dialect] at each
  rw [Workspace.whereClause, dialect, if_neg (Table.joined_ne_truthClause d each)]

theorem rowStatement_eq_ok_iff {d : BuiltinDialect} (dialect : w.dialect = d.dialect)
    (declared : t.Declared d.dialect) (write : BulkWrite) {row : Row} {sql : String} :
    write.rowStatement w t arguments row = .ok sql ↔ write.WritesRow w t arguments row sql := by
  constructor
  · intro written
    obtain ⟨key, made, written⟩ := Except.bind_eq_ok_iff.1 written
    obtain ⟨front, fronted, written⟩ := Except.bind_eq_ok_iff.1 written
    obtain ⟨⟨condition, exactness⟩, compiled, finished⟩ := Except.bind_eq_ok_iff.1 written
    cases exactness with
    | false => cases finished
    | true =>
        obtain rfl := Except.ok.inj finished
        obtain ⟨equations, each, rfl⟩ :=
          Table.equations_of_keyRestriction rfl (dialect ▸ declared) made compiled rfl
        exact ⟨front, key, equations, fronted, made, compiled, each,
          by rw [whereClause_of_equations dialect each]⟩
  · rintro ⟨front, key, equations, fronted, made, compiled, each, rfl⟩
    refine Except.bind_eq_ok_iff.2 ⟨key, made, Except.bind_eq_ok_iff.2 ⟨front, fronted,
      Except.bind_eq_ok_iff.2 ⟨_, compiled, ?_⟩⟩⟩
    rw [finish, if_pos rfl, whereClause_of_equations dialect each]

/-- The rows that the database returned, each with whether the restriction accepts it. -/
def Verdicts (db : Database) (t : Table) (e : Lambda) (arguments : Arguments)
    (selected : CompiledQuery) (response : Response) (verdicts : List (Row × Bool)) : Prop :=
  List.Forall₂ (fun cells found => Database.Judged db.workspace.functions e
    (t.query (some e) arguments) selected cells found.1 found.2) response.rows verdicts

def acceptedRows (verdicts : List (Row × Bool)) : List Row :=
  (verdicts.filter Prod.snd).map Prod.fst

/-- What a write row by row does with the rows that the database returns, once the statements
for all rows are planned. -/
structure RowByRow (write : BulkWrite) (db : Database) (t : Table) (e : Lambda)
    (arguments : Arguments) (selected : CompiledQuery) (response : Response)
    (plan : Outcome (List String)) : Prop where
  /-- If a statement cannot be planned, none runs. -/
  unplanned : ∀ fault, plan = .error fault →
    (write.action t (some e) arguments).Fails db [selected.sql]
  /-- The statements run one after the other, unless one of them fails. -/
  planned : ∀ sqls, plan = .ok sqls →
    ∃ n, (write.action t (some e) arguments).Ran db (selected.sql :: sqls.take n) ∧
      (((write.action t (some e) arguments).run db).1.isOk = true → sqls.length ≤ n)
  /-- There is no plan if a row can neither be accepted nor refused, or if one that is accepted
  lacks a key or a value to write. -/
  prepared : ∀ sqls, plan = .ok sqls → ∃ verdicts,
    Verdicts db t e arguments selected response verdicts ∧
      ∀ row ∈ acceptedRows verdicts, write.Prepared db.workspace t arguments row
  /-- There is one statement for each row that is accepted, and no other. -/
  each : ∀ verdicts, Verdicts db t e arguments selected response verdicts →
    write.Unambiguous db.workspace t e arguments (acceptedRows verdicts) →
    ∀ sqls, plan = .ok sqls ↔
      List.Forall₂ (write.WritesRow db.workspace t arguments) (acceptedRows verdicts) sqls

section RowByRow

variable {d : BuiltinDialect} {db : Database} {found : Restriction}

theorem exists_rowByRow (dialect : db.workspace.dialect = d.dialect)
    (forgotten : db.memo.entries = []) (declared : t.Declared d.dialect) (write : BulkWrite)
    (compiled : (request t e arguments).afresh db.workspace = .ok found)
    (inexact : found.exact = false) (keyed : t.keyColumns ≠ []) (lenient : db.strict = false)
    {response : Response}
    (replied : ((Database.execute (t.fetching db.workspace found).sql).run db).1 =
      .ok response) :
    ∃ plan, write.RowByRow db t e arguments (t.fetching db.workspace found) response plan := by
  obtain ⟨plan, memo, run, spec⟩ :=
    write.action_run_of_inexact forgotten compiled inexact keyed lenient
  obtain ⟨c, fetched⟩ := Table.executed_execute db (t.fetching db.workspace found).sql
  -- the rows that are accepted, as they are judged one by one
  have kept_iff : ∀ kept, accepted db.workspace t e arguments found response = .ok kept ↔ _ :=
    Database.decode_refilter_eq_ok_iff (w := db.workspace) db.workspace.functions e rfl
      response.rows
  have rows : ((Database.execute (t.fetching db.workspace found).sql).run db).1 >>=
      accepted db.workspace t e arguments found =
        accepted db.workspace t e arguments found response := by rw [replied]; rfl
  obtain ⟨refused, decided⟩ := spec _ rows
  refine ⟨plan, ?_, ?_, ?_, ?_⟩
  · rintro fault rfl
    exact Action.fails_of_run run fetched rfl
  · rintro sqls rfl
    obtain ⟨c', n, executed, all⟩ := Table.executed_executeAllCounting
      { ((Database.execute (t.fetching db.workspace found).sql).run db).2 with memo } sqls
    refine ⟨n, ⟨⟨c, (t.fetching db.workspace found).sql⟩ :: (sqls.take n).map (Executed.mk c'),
      ?_, ?_⟩, ?_⟩
    · rw [run]
      dsimp only
      rw [executed, fetched, List.append_assoc, List.singleton_append]
    · simp [Function.comp_def]
    · rw [run]
      exact all
  · rintro sqls rfl
    cases answer : accepted db.workspace t e arguments found response with
    | error fault => cases refused fault answer
    | ok kept =>
        obtain ⟨verdicts, judged, rfl⟩ := (kept_iff kept).1 answer
        exact ⟨verdicts, judged, (decided _ answer).1 sqls rfl⟩
  · intro verdicts judged unambiguous sqls
    have answer : accepted db.workspace t e arguments found response =
        .ok (acceptedRows verdicts) := (kept_iff _).2 ⟨verdicts, judged, rfl⟩
    rw [(decided _ answer).2 unambiguous, Except.mapM_eq_ok_iff]
    simp only [rowStatement_eq_ok_iff dialect declared]

end RowByRow

/-- A write never touches a row too many.  An exact restriction goes into the only statement that
runs, and is left out only if it always holds.  Any other restriction decides which of the
fetched rows are written, each by a statement of its own.  Whatever is at fault, the
restriction, a row, a key or an assignment, nothing is written before all statements are
there. -/
theorem bulk_writes_never_widen {d : BuiltinDialect} {db : Database}
    (dialect : db.workspace.dialect = d.dialect) (forgotten : db.memo.entries = [])
    (declared : t.Declared d.dialect) (write : BulkWrite) (e : Lambda) (arguments : Arguments) :
    (∀ fault, (request t e arguments).afresh db.workspace = .error fault →
      (write.action t (some e) arguments).Fails db []) ∧
    (∀ sql, (request t e arguments).afresh db.workspace = .ok ⟨sql, true⟩ →
      (∀ fault, write.front db.workspace t arguments = .error fault →
        (write.action t (some e) arguments).Fails db []) ∧
      ∀ front, write.front db.workspace t arguments = .ok front →
        (write.action t (some e) arguments).Ran db [spaced (front ++
          if sql = d.dialect.truthClause true then [] else ["WHERE " ++ sql])]) ∧
    ∀ sql, (request t e arguments).afresh db.workspace = .ok ⟨sql, false⟩ →
      (t.keyColumns = [] ∨ db.strict = true → (write.action t (some e) arguments).Fails db []) ∧
      (t.keyColumns ≠ [] → db.strict = false → ∃ selected,
        (db.workspace.select false (t.query (some e) arguments)).run none = (.ok selected, none) ∧
        (∀ fault, ((Database.execute selected.sql).run db).1 = .error fault →
          (write.action t (some e) arguments).Fails db [selected.sql]) ∧
        ∀ response, ((Database.execute selected.sql).run db).1 = .ok response →
          ∃ plan, write.RowByRow db t e arguments selected response plan) := by
  refine ⟨?_, ?_, ?_⟩
  · intro fault refused
    obtain ⟨memo, run⟩ := write.action_run_of_direct forgotten (by rw [refused]; rfl)
    obtain ⟨fault', unwritten⟩ := write.afresh_of_fault refused
    rw [unwritten] at run
    exact Action.fails_of_run run (List.append_nil _).symm rfl
  · intro sql compiled
    obtain ⟨memo, run⟩ := write.action_run_of_direct forgotten (by rw [compiled]; rfl)
    rw [write.afresh_of_exact compiled] at run
    constructor
    · intro fault noFront
      rw [noFront] at run
      exact Action.fails_of_run run (List.append_nil _).symm rfl
    · intro front fronted
      rw [fronted, Workspace.whereClause, dialect] at run
      obtain ⟨c, executed⟩ := Table.executed_executeCounting { db with memo } (spaced (front ++
        if sql = d.dialect.truthClause true then [] else ["WHERE " ++ sql]))
      change _ = (Table.executeCounting _).run _ at run
      exact ⟨_, by rw [run, executed], rfl⟩
  · intro sql compiled
    constructor
    · intro barred
      obtain ⟨fault, memo, run⟩ := write.action_run_of_barred forgotten compiled rfl barred
      exact Action.fails_of_run run (List.append_nil _).symm rfl
    · intro keyed lenient
      have answered : (db.workspace.restriction [.ofTable t] e arguments).run none =
          (.ok ⟨sql, false⟩, none) := congrArg (·, none) compiled
      obtain ⟨_, select⟩ := Table.select_run false answered
      refine ⟨_, select, fun fault failed => ?_,
        fun response replied =>
          exists_rowByRow dialect forgotten declared write compiled rfl keyed lenient replied⟩
      obtain ⟨plan, memo, run, spec⟩ :=
        write.action_run_of_inexact forgotten compiled rfl keyed lenient
      obtain ⟨c, fetched⟩ := Table.executed_execute db (t.fetching db.workspace ⟨sql, false⟩).sql
      obtain ⟨refused, -⟩ := spec (.error fault) (by rw [failed]; rfl)
      rw [refused fault rfl] at run
      exact Action.fails_of_run run fetched rfl

section Switches

/-- A table of truth values that are its key. -/
def switches : Table where
  name := "switch"
  quotedName := "\"switch\""
  columns := [{ key := "on", name := "on", quotedName := "\"on\"", kind := .bool,
                type := .plainOf "BOOLEAN" .boolean, isKey := true }]

/-- A test without SQL form. -/
def litTest : Function where
  compute := some fun
    | [value] => .ok value
    | _ => .ok .null

/-- A database that answers with both truth values. -/
def switchboard : Database where
  workspace := { dialect := .ansi, functions := FunctionLibrary.register {} "lit" litTest }
  recorder := Recorder.scripted {} "SELECT" (.ok { rows := [[.bool true], [.bool false]] })

/-- The test of a switch. -/
def isLit : Lambda :=
  ⟨["x"], .call "lit" [.field (.param 0) "on"], by decide⟩

/-- The switch that is on, by its key. -/
def isOn : Lambda :=
  ⟨["switch"], .compare (.field (.param 0) "on") .eq (.constant (.bool true)), by decide⟩

theorem unambiguous_isLit :
    delete.Unambiguous switchboard.workspace switches isLit [] [[("on", .bool true)]] := by
  have key {r} (inSet : delete.Requests switches isLit [] [[("on", .bool true)]] r) :
      r = request switches isLit [] ∨ r = request switches isOn [] := by
    rcases inSet with first | ⟨row, member, key, made, rfl⟩
    · exact .inl first
    · obtain rfl := List.mem_singleton.1 member
      obtain rfl : isOn = key := Except.ok.inj made
      exact .inr rfl
  intro r s rInSet sInSet alike found compiled
  have printed := alike.expression
  rcases key rInSet with rfl | rfl <;> rcases key sInSet with rfl | rfl
  · exact compiled
  · exact absurd printed (by decide)
  · exact absurd printed (by decide)
  · exact compiled

/-- The switch that is on is deleted, by its key. -/
theorem delete_isLit :
    (delete.action switches (some isLit) []).Ran switchboard
      ["SELECT \"on\" FROM \"switch\"", "DELETE FROM \"switch\" WHERE \"on\" = TRUE"] := by
  have declared : switches.Declared BuiltinDialect.ansi.dialect :=
    ⟨by simp [switches]; rfl, by simp [switches], by simp [switches]⟩
  have dialect : switchboard.workspace.dialect = BuiltinDialect.ansi.dialect := rfl
  obtain ⟨-, -, inexact⟩ := bulk_writes_never_widen dialect rfl declared delete isLit []
  obtain ⟨-, fetched⟩ := inexact "TRUE" rfl
  obtain ⟨selected, select, -, replies⟩ := fetched nofun rfl
  obtain rfl : switches.fetching switchboard.workspace ⟨"TRUE", false⟩ = selected :=
    Except.ok.inj (congrArg Prod.fst select)
  obtain ⟨plan, rowByRow⟩ := replies { rows := [[.bool true], [.bool false]] } rfl
  have judged := rowByRow.each [([("on", .bool true)], true), ([("on", .bool false)], false)]
    (.cons ⟨rfl, rfl, _, rfl, rfl⟩ (.cons ⟨rfl, rfl, _, rfl, rfl⟩ .nil)) unambiguous_isLit
  have planned := (judged ["DELETE FROM \"switch\" WHERE \"on\" = TRUE"]).2 (.cons
    ⟨_, isOn, ["\"on\" = TRUE"], rfl, rfl, rfl,
      .cons ⟨.bool true, "TRUE", rfl, .inl ⟨rfl, rfl⟩, rfl⟩ .nil, rfl⟩ .nil)
  obtain ⟨n, ran, all⟩ := rowByRow.planned _ planned
  have succeeded : ((delete.action switches (some isLit) []).run switchboard).1.isOk = true := by
    decide +kernel
  rwa [List.take_of_length_le (all succeeded)] at ran

end Switches

end BulkWrite

end RowQuery
