import RowQuery.Database
import RowQuery.Dialect.Ansi
import RowQuery.Proofs.Query.Regrouping

/-!
# Filtering again

A statement that selects too many rows is made exact afterwards: the restriction is
evaluated on the cells of each row that the connection returns.
-/

namespace RowQuery

/-- A statement for all columns selects the columns of all tables. -/
theorem Workspace.select_columns {w : Workspace} {strict : Bool} {q : Query}
    (everything : q.projection = .all) {before after : Option Memo} {compiled : CompiledQuery}
    (written : (w.select strict q).run before = (.ok compiled, after)) :
    compiled.columns = (w.columnSelection q.relation.bindings
      (allColumns q.relation.bindings)).columns := by
  rw [select] at written
  obtain ⟨relation, _, -, written⟩ := ExceptT.run_bind_eq_ok_iff.1 written
  obtain ⟨selection, _, selected, written⟩ := ExceptT.run_bind_eq_ok_iff.1 written
  rw [everything] at selected
  cases selected
  by_cases offset : (w.limitsInFront && q.offset.isSome) = true
  · rw [if_pos offset] at written
    obtain ⟨_, _, impossible, -⟩ := ExceptT.run_bind_eq_ok_iff.1 written
    cases impossible
  · rw [if_neg offset] at written
    obtain ⟨_, _, -, written⟩ := ExceptT.run_bind_eq_ok_iff.1 written
    obtain ⟨_, _, -, written⟩ := ExceptT.run_bind_eq_ok_iff.1 written
    cases written
    rfl

namespace Action

variable {α β : Type}

/-- The action changes neither the dialect nor the functions. -/
def KeepsWorkspace (action : Action α) : Prop :=
  ∀ db, (action.run db).2.workspace = db.workspace

theorem KeepsWorkspace.bind {action : Action α} {rest : α → Action β}
    (first : KeepsWorkspace action) (second : ∀ a, KeepsWorkspace (rest a)) :
    KeepsWorkspace (action >>= rest) := by
  intro db
  change ((ExceptT.bindCont rest (action.run db).1).run (action.run db).2).2.workspace = _
  rw [← first db]
  rcases action.run db with ⟨_ | a, between⟩
  · rfl
  · exact second a between

theorem keepsWorkspace_pure (a : α) : KeepsWorkspace (pure a) :=
  fun _ => rfl

theorem keepsWorkspace_throw (fault : Fault) : KeepsWorkspace (throw fault : Action α) :=
  fun _ => rfl

theorem keepsWorkspace_get : KeepsWorkspace get :=
  fun _ => rfl

theorem keepsWorkspace_withRecorder (step : Recorder → Outcome α × Recorder) :
    KeepsWorkspace (withRecorder step) :=
  fun _ => rfl

theorem keepsWorkspace_write (compile : Workspace → Memoized α) :
    KeepsWorkspace (write compile) :=
  fun _ => rfl

theorem KeepsWorkspace.attempt {action : Action α} (keeps : KeepsWorkspace action) :
    KeepsWorkspace (attempt action) :=
  keeps

end Action

namespace Database

open Action

theorem keepsWorkspace_executeAll (statements : List String) :
    KeepsWorkspace (executeAll statements) := by
  refine keepsWorkspace_get.bind fun db => ?_
  split
  · exact keepsWorkspace_withRecorder _
  · refine (keepsWorkspace_withRecorder _).bind fun connection => ?_
    refine (keepsWorkspace_withRecorder _).attempt.bind fun outcome => ?_
    refine (keepsWorkspace_withRecorder _).bind fun _ => ?_
    cases outcome with
    | error fault => exact fun _ => rfl
    | ok responses => exact fun _ => rfl

theorem keepsWorkspace_execute (sql : String) : KeepsWorkspace (execute sql) := by
  refine (keepsWorkspace_executeAll [sql]).bind fun responses => ?_
  split
  · exact keepsWorkspace_pure _
  · exact keepsWorkspace_throw _

theorem keepsWorkspace_selectStatement (q : Query) : KeepsWorkspace (selectStatement q) :=
  keepsWorkspace_get.bind fun _ => keepsWorkspace_write _

theorem selectStatement_columns {q : Query} (everything : q.projection = .all)
    {before after : Database} {compiled : CompiledQuery}
    (written : (selectStatement q).run before = (.ok compiled, after)) :
    ∃ w : Workspace, compiled.columns = (w.columnSelection q.relation.bindings
      (Workspace.allColumns q.relation.bindings)).columns := by
  cases outcome : (before.workspace.select before.strict q).run (some before.memo) with
  | mk found memo =>
      have written : (found, { before with memo := memo.getD before.memo }) =
          (.ok compiled, after) := by
        rw [← written]
        change _ = (match (before.workspace.select before.strict q).run (some before.memo) with
          | (found, memo) => (found, { before with memo := memo.getD before.memo }))
        rw [outcome]
      rw [(Prod.mk.inj written).1] at outcome
      exact ⟨_, Workspace.select_columns everything outcome⟩

theorem refilter_eq_ok_iff {functions : FunctionLibrary} {e : Lambda} {q : Query}
    {compiled : CompiledQuery} {rows kept : List Row} :
    refilter functions e q compiled rows = .ok kept ↔
      ∃ verdicts, List.Forall₂ (fun row verdict => e.matches?
          { rows := compiled.splitRow row q.relation.size, arguments := q.arguments, functions } =
            .ok verdict) rows verdicts ∧
        kept = ((rows.zip verdicts).filter Prod.snd).map Prod.fst := by
  induction rows generalizing kept with
  | nil =>
      constructor
      · intro ended
        exact ⟨[], .nil, (Except.ok.inj ended).symm⟩
      · rintro ⟨verdicts, -, rfl⟩
        rfl
  | cons row rows ih =>
      rw [refilter, Except.bind_eq_ok_iff]
      constructor
      · rintro ⟨verdict, head, ended⟩
        obtain ⟨rest, tail, whole⟩ := Except.bind_eq_ok_iff.1 ended
        obtain ⟨verdicts, judged, rfl⟩ := ih.1 tail
        refine ⟨verdict :: verdicts, .cons head judged, ?_⟩
        rw [← Except.ok.inj whole]
        cases verdict <;> rfl
      · rintro ⟨_, judged, rfl⟩
        cases judged with
        | @cons _ verdict _ verdicts head tail =>
            refine ⟨verdict, head, Except.bind_eq_ok_iff.2 ⟨_, ih.2 ⟨verdicts, tail, rfl⟩, ?_⟩⟩
            cases verdict <;> rfl

/-- A statement that is not exact, run and answered, ends with the rows decoded and
filtered again. -/
theorem select_run_of_inexact {q : Query} {e : Lambda} (everything : q.projection = .all)
    (restricted : q.restriction = some e) {before between after : Database}
    {compiled : CompiledQuery} {response : Response}
    (written : (selectStatement q).run before = (.ok compiled, between))
    (inexact : compiled.exact = false)
    (replied : (execute compiled.sql).run between = (.ok response, after)) :
    (select q).run before =
      (response.rows.mapM compiled.decodeRow >>=
        refilter before.workspace.functions e q compiled, after) := by
  have workspace : after.workspace = before.workspace := by
    have first := keepsWorkspace_selectStatement q before
    have second := keepsWorkspace_execute compiled.sql between
    rw [written] at first
    rw [replied] at second
    exact second.trans first
  have allowed : ¬(!compiled.exact && !selectsAll q.projection) = true := by
    simp [everything, selectsAll]
  rw [select, ExceptT.run_bind_of_ok written, if_neg allowed, ExceptT.run_bind_of_ok replied,
    ← workspace]
  cases response.rows.mapM compiled.decodeRow with
  | error fault => rfl
  | ok rows =>
      rw [restricted, inexact]
      rfl

/-- A row that the connection returns: it can be decoded, and the restriction accepts
or refuses the cells of each table. -/
structure Judged (functions : FunctionLibrary) (e : Lambda) (q : Query)
    (compiled : CompiledQuery) (cells : List Cell) (row : Row) (verdict : Bool) : Prop where
  width : cells.length = (q.relation.tables.flatMap Table.columns).length
  decoded : compiled.decodeRow cells = .ok row
  judged : ∃ rows, Table.decodeRows q.relation.tables cells = .ok rows ∧
    e.matches? { rows, arguments := q.arguments, functions } = .ok verdict

theorem judged_iff {functions : FunctionLibrary} {e : Lambda} {q : Query}
    {compiled : CompiledQuery} {w : Workspace}
    (columns : compiled.columns = (w.columnSelection q.relation.bindings
      (Workspace.allColumns q.relation.bindings)).columns)
    {cells : List Cell} {row : Row} {verdict : Bool} :
    Judged functions e q compiled cells row verdict ↔
      compiled.decodeRow cells = .ok row ∧
        e.matches? { rows := compiled.splitRow row q.relation.size, arguments := q.arguments,
                     functions } = .ok verdict := by
  have split (decoded : compiled.decodeRow cells = .ok row) :
      Table.decodeRows q.relation.tables cells =
        .ok (compiled.splitRow row q.relation.size) := by
    rw [← Relation.map_table_bindings, ← Relation.length_bindings]
    exact CompiledQuery.decodeRows_eq_splitRow columns decoded
  constructor
  · rintro ⟨-, decoded, rows, parts, judged⟩
    rw [split decoded] at parts
    obtain rfl := Except.ok.inj parts
    exact ⟨decoded, judged⟩
  · rintro ⟨decoded, judged⟩
    have width := CompiledQuery.length_of_decodeRow decoded
    rw [columns, CompiledQuery.length_allColumns, Relation.map_table_bindings] at width
    exact ⟨width, decoded, _, split decoded, judged⟩

/-- Rows that are decoded and then filtered are judged one by one. -/
theorem decode_refilter_eq_ok_iff (functions : FunctionLibrary) (e : Lambda) {q : Query}
    {compiled : CompiledQuery} {w : Workspace}
    (columns : compiled.columns = (w.columnSelection q.relation.bindings
      (Workspace.allColumns q.relation.bindings)).columns)
    (replies : List (List Cell)) (kept : List Row) :
    replies.mapM compiled.decodeRow >>= refilter functions e q compiled = .ok kept ↔
      ∃ judged : List (Row × Bool),
        List.Forall₂ (fun cells found => Judged functions e q compiled cells found.1 found.2)
          replies judged ∧
        kept = (judged.filter Prod.snd).map Prod.fst := by
  simp only [Except.bind_eq_ok_iff, Except.mapM_eq_ok_iff, refilter_eq_ok_iff, judged_iff columns]
  constructor
  · rintro ⟨rows, decoded, verdicts, judged, rfl⟩
    refine ⟨rows.zip verdicts, ?_, rfl⟩
    induction decoded generalizing verdicts with
    | nil => exact .nil
    | cons head tail ih =>
        cases judged with
        | cons verdict others => exact .cons ⟨head, verdict⟩ (ih _ others)
  · rintro ⟨judged, agree, rfl⟩
    refine ⟨judged.map Prod.fst, ?_, judged.map Prod.snd, ?_, ?_⟩
    · exact List.forall₂_map_right_iff.2 (agree.imp fun _ _ both => both.1)
    · rw [List.forall₂_map_left_iff, List.forall₂_map_right_iff, List.forall₂_same]
      intro found member
      obtain ⟨_, -, both⟩ := agree.flip.exists_of_mem member
      exact both.2
    · rw [List.zip_map']
      simp

end Database

section Counters

/-- The column of a table of numbers. -/
def counterColumn : Column :=
  { key := "n", name := "n", quotedName := "\"n\"", kind := .int, type := .integerOf "BIGINT" 8 }

/-- A table of numbers. -/
def counter (name quotedName : String) : Table where
  name
  quotedName
  columns := [counterColumn]

/-- A test without SQL form. -/
def oddTest : Function where
  compute := some fun
    | [.int n] => .ok (.bool (n % 2 = 1))
    | _ => .ok .null

def counterReplies : List (List Cell) :=
  [[.int 1, .int 2], [.int 2, .int 3]]

/-- A database that answers with pairs of numbers. -/
def counters : Database where
  workspace := { dialect := .ansi, functions := FunctionLibrary.register {} "odd" oddTest }
  recorder := Recorder.scripted {} "" (.ok { rows := counterReplies })

/-- The pairs of a smaller and a greater number of which the greater one is odd. -/
def oddCounters : Query where
  relation := .join .inner (.table (counter "near" "\"near\"")) (.table (counter "far" "\"far\""))
    (some ⟨["x", "y"], .compare (.field (.param 0) "n") .lt (.field (.param 1) "n"), by decide⟩)
  restriction := some ⟨["x", "y"], .call "odd" [.field (.param 1) "n"], by decide⟩

/-- The statement does not test whether a number is odd. -/
def oddCountersStatement : CompiledQuery where
  sql := "SELECT \"near\".\"n\" AS \"near_n\", \"far\".\"n\" AS \"far_n\" " ++
    "FROM \"near\" INNER JOIN \"far\" ON \"near\".\"n\" < \"far\".\"n\""
  exact := false
  columns := [.ofColumn "near_n" 0 counterColumn, .ofColumn "far_n" 1 counterColumn]

end Counters

end RowQuery
