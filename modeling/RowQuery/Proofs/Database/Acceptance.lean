import RowQuery.Proofs.Database.Running

/-!
# Statements that a server accepts

The record of a server has every statement that ran, those that failed too.  Which of them it
accepted follows from its script.  A schema change that succeeds has had all its statements
accepted; one that fails has had those in front of the failing one accepted and none behind it
run.
-/

namespace RowQuery

namespace Recorder

/-- Of statements that run one after the other, those that succeed. -/
def accepted : Recorder → List String → List String
  | _, [] => []
  | r, sql :: rest =>
      match r.execute 0 sql with
      | (.ok _, r) => sql :: r.accepted rest
      | (.error _, r) => r.accepted rest

/-- No statement is answered with a fault. -/
def Obliging (r : Recorder) : Prop :=
  ∀ reply ∈ r.script, ∃ response, reply.answer = .ok response

/-- Statements ran between two states of a server, and some of them were accepted. -/
structure Served (before after : Recorder) (told taken : List String) : Prop where
  executed : after.executed.map Executed.sql = before.executed.map Executed.sql ++ told
  accepted : ∀ more, before.accepted (told ++ more) = taken ++ after.accepted more

variable {r r' r'' : Recorder} {told taken told' taken' : List String}

/-- Only the script decides what is accepted. -/
theorem accepted_congr (same : r.script = r'.script) (statements : List String) :
    r.accepted statements = r'.accepted statements := by
  induction statements generalizing r r' with
  | nil => rfl
  | cons sql rest ih =>
      have scripts : (r.execute 0 sql).2.script = (r'.execute 0 sql).2.script := by
        simp only [execute, same]
      have answers : (r.execute 0 sql).1 = (r'.execute 0 sql).1 := by simp only [execute, same]
      rw [accepted, accepted]
      generalize r.execute 0 sql = ran, r'.execute 0 sql = ran' at scripts answers
      obtain ⟨outcome, r⟩ := ran
      obtain ⟨outcome', r'⟩ := ran'
      obtain rfl : outcome = outcome' := answers
      cases outcome with
      | ok response => exact congrArg (sql :: ·) (ih scripts)
      | error cause => exact ih scripts

/-- A connection is handed out or taken back. -/
theorem served_idle (executed : r'.executed = r.executed) (script : r'.script = r.script) :
    r.Served r' [] [] :=
  ⟨by rw [executed, List.append_nil], fun more => accepted_congr script.symm more⟩

theorem Served.trans (first : r.Served r' told taken) (second : r'.Served r'' told' taken') :
    r.Served r'' (told ++ told') (taken ++ taken') := by
  refine ⟨?_, fun more => ?_⟩
  · rw [second.executed, first.executed, List.append_assoc]
  · rw [List.append_assoc, first.accepted, second.accepted, List.append_assoc]

theorem served_execute (c : Connection) (sql : String) :
    (∀ response, (r.execute c sql).1 = .ok response → r.Served (r.execute c sql).2 [sql] [sql]) ∧
      ∀ cause, (r.execute c sql).1 = .error cause → r.Served (r.execute c sql).2 [sql] [] := by
  have executed : (r.execute c sql).2.executed.map Executed.sql =
      r.executed.map Executed.sql ++ [sql] := by simp [execute]
  have answers : (r.execute 0 sql).1 = (r.execute c sql).1 := rfl
  have scripts : (r.execute 0 sql).2.script = (r.execute c sql).2.script := rfl
  constructor
  · intro response ended
    refine ⟨executed, fun more => ?_⟩
    rw [List.singleton_append, accepted, ← accepted_congr scripts]
    rw [ended] at answers
    rcases ran : r.execute 0 sql with ⟨_ | _, between⟩
    · rw [ran] at answers
      cases answers
    · rfl
  · intro cause ended
    refine ⟨executed, fun more => ?_⟩
    rw [List.singleton_append, accepted, ← accepted_congr scripts]
    rw [ended] at answers
    rcases ran : r.execute 0 sql with ⟨_ | _, between⟩
    · rfl
    · rw [ran] at answers
      cases answers

theorem Obliging.execute (obliging : r.Obliging) (c : Connection) (sql : String) :
    (∃ response, (r.execute c sql).1 = .ok response) ∧ (r.execute c sql).2.Obliging := by
  constructor
  · cases found : r.script.find? (ScriptedReply.isFor sql) with
    | none => exact ⟨.touching 0, by simp [Recorder.execute, found]⟩
    | some reply =>
        obtain ⟨response, answers⟩ := obliging reply (List.mem_of_find?_eq_some found)
        exact ⟨response, by simp [Recorder.execute, found, answers]⟩
  · exact fun reply member => obliging reply (List.mem_of_mem_eraseP member)

/-- Statements that all succeed. -/
theorem served_executeAll_ok (c : Connection) {statements : List String}
    {responses : List Response} (ran : executeAll c statements r = (.ok responses, r')) :
    r.Served r' statements statements := by
  induction statements generalizing r responses with
  | nil =>
      cases ran
      exact served_idle rfl rfl
  | cons sql sqls ih =>
      have head := (@served_execute r c sql).1
      rw [executeAll] at ran
      rcases first : r.execute c sql with ⟨_ | response, between⟩
      · rw [first] at ran
        cases ran
      · rw [first] at ran head
        rcases rest : executeAll c sqls between with ⟨_ | _, r''⟩
        · simp only [rest, Except.map] at ran
          cases ran
        · simp only [rest, Except.map] at ran
          cases ran
          exact (head response rfl).trans (ih rest)

/-- Statements up to the first that fails. -/
theorem served_executeAll_error (c : Connection) {statements : List String} {cause : Fault}
    (ran : executeAll c statements r = (.error cause, r')) :
    ∃ n < statements.length, r.Served r' (statements.take (n + 1)) (statements.take n) := by
  induction statements generalizing r with
  | nil => cases ran
  | cons sql sqls ih =>
      obtain ⟨served, refused⟩ := @served_execute r c sql
      rw [executeAll] at ran
      rcases first : r.execute c sql with ⟨_ | response, between⟩
      · rw [first] at ran refused
        cases ran
        exact ⟨0, Nat.succ_pos _, refused cause rfl⟩
      · rw [first] at ran served
        rcases rest : executeAll c sqls between with ⟨_ | _, r''⟩
        · simp only [rest, Except.map] at ran
          cases ran
          obtain ⟨n, short, went⟩ := ih rest
          exact ⟨n + 1, Nat.succ_lt_succ short, (served response rfl).trans went⟩
        · simp only [rest, Except.map] at ran
          cases ran

theorem Obliging.executeAll (obliging : r.Obliging) (c : Connection) (statements : List String) :
    (∃ responses, (executeAll c statements r).1 = .ok responses) ∧
      (executeAll c statements r).2.Obliging := by
  induction statements generalizing r with
  | nil => exact ⟨⟨[], rfl⟩, obliging⟩
  | cons sql sqls ih =>
      obtain ⟨⟨response, answered⟩, still⟩ := obliging.execute c sql
      obtain ⟨⟨responses, rest⟩, last⟩ := ih still
      rcases first : r.execute c sql with ⟨outcome, between⟩
      rw [first] at answered rest last
      obtain rfl : outcome = .ok response := answered
      rw [Recorder.executeAll, first]
      exact ⟨⟨response :: responses, by simp only [rest, Except.map]⟩, last⟩

end Recorder

namespace Database

open RowQuery.Action

variable {db db' : Database} {statements told taken : List String}

/-- The statements that ran since an earlier state and were accepted. -/
def acceptedSince (before after : Database) : List String :=
  before.recorder.accepted (after.record.drop before.record.length)

/-- Statements ran between two states of a database, behind the commit of the transaction that
was open, and some of them were accepted. -/
def Served (before after : Database) (told taken : List String) : Prop :=
  ∃ commit committed, commit <+: before.openCommit.map Executed.sql ∧ committed <+: commit ∧
    before.recorder.Served after.recorder (commit ++ told) (committed ++ taken)

theorem Served.record (served : db.Served db' told taken) :
    ∃ commit, commit <+: db.openCommit.map Executed.sql ∧
      db'.record = db.record ++ commit ++ told := by
  obtain ⟨commit, _, whole, -, went⟩ := served
  exact ⟨commit, whole, went.executed.trans (List.append_assoc ..).symm⟩

/-- The statements that were accepted since an earlier state, behind the commit of the transaction
that was open. -/
def Accepts (before after : Database) (statements : List String) : Prop :=
  ∃ commit, commit <+: before.openCommit.map Executed.sql ∧
    before.acceptedSince after = commit ++ statements

theorem Served.accepts (served : db.Served db' told taken) : db.Accepts db' taken := by
  obtain ⟨commit, committed, whole, part, went⟩ := served
  refine ⟨committed, part.trans whole, ?_⟩
  have ran : db'.record = db.record ++ (commit ++ told) := went.executed
  have since : db'.record.drop db.record.length = commit ++ told := by
    rw [ran, List.drop_left]
  have all := went.accepted []
  rw [List.append_nil] at all
  rw [Database.acceptedSince, since, all]
  exact List.append_nil _

theorem served_idle (executed : db'.recorder.executed = db.recorder.executed)
    (script : db'.recorder.script = db.recorder.script) : db.Served db' [] [] :=
  ⟨[], [], List.nil_prefix, List.prefix_rfl, Recorder.served_idle executed script⟩

/-- Without a transaction nothing is committed in front of the statements. -/
theorem Served.of_closed (served : db.Served db' told taken) (closed : db.transaction = none) :
    db.recorder.Served db'.recorder told taken := by
  obtain ⟨commit, committed, whole, part, went⟩ := served
  have none : db.openCommit.map Executed.sql = [] := by rw [openCommit, closed]; rfl
  rw [none] at whole
  obtain rfl := List.prefix_nil.1 whole
  obtain rfl := List.prefix_nil.1 part
  exact went

/-- Statements behind others, which have closed the transaction. -/
theorem Served.behind {sqls : List String} {between : Database}
    (first : db.Served between sqls sqls) (closed : between.transaction = none)
    (second : between.Served db' told taken) : db.Served db' (sqls ++ told) (sqls ++ taken) := by
  obtain ⟨commit, committed, whole, part, went⟩ := first
  refine ⟨commit, committed, whole, part, ?_⟩
  rw [← List.append_assoc, ← List.append_assoc]
  exact went.trans (second.of_closed closed)

/-- A schema change that has the lock and no transaction. -/
theorem proceed_served (free : db.transaction = none) (statements : List String) :
    ((proceed statements).run db).2.transaction = none ∧
    (((proceed statements).run db).1 = .ok () →
      db.Served ((proceed statements).run db).2 statements statements) ∧
    ∀ cause, ((proceed statements).run db).1 = .error cause →
      ∃ n < statements.length, db.Served ((proceed statements).run db).2
        (statements.take (n + 1)) (statements.take n) := by
  obtain ⟨memo, went⟩ := proceed_run db statements
  rw [went, executeAll_run_of_none free]
  have handed : db.recorder.Served db.recorder.acquire.2 [] [] := Recorder.served_idle rfl rfl
  have given (r : Recorder) : r.Served r.release [] [] := Recorder.served_idle rfl rfl
  refine ⟨free, fun succeeded => ?_, fun cause failed => ?_⟩
  · obtain ⟨responses, all, -⟩ := Except.map_eq_ok_iff.1 succeeded
    have served := Recorder.served_executeAll_ok _ (Prod.ext all rfl)
    refine ⟨[], [], List.nil_prefix, List.prefix_rfl, ?_⟩
    simpa using (handed.trans served).trans (given _)
  · have failed : (Recorder.executeAll db.recorder.acquired statements
        db.recorder.acquire.2).1 = .error cause := by
      dsimp only at failed
      generalize (Recorder.executeAll _ statements _).1 = outcome at failed ⊢
      cases outcome with
      | error _ => exact congrArg Except.error (Except.error.inj failed)
      | ok _ => cases failed
    obtain ⟨n, short, served⟩ := Recorder.served_executeAll_error _ (Prod.ext failed rfl)
    refine ⟨n, short, [], [], List.nil_prefix, List.prefix_rfl, ?_⟩
    simpa using (handed.trans served).trans (given _)

/-- Statements behind the commit of the open transaction. -/
theorem Served.behind_commit {c : Connection} {between : Database}
    (slot : db.transaction = some c) (committed : db.recorder.Served between.recorder
      ["COMMIT"] ["COMMIT"]) (closed : between.transaction = none)
    (served : between.Served db' told taken) : db.Served db' told taken := by
  refine ⟨["COMMIT"], ["COMMIT"], ?_, List.prefix_rfl, committed.trans (served.of_closed closed)⟩
  rw [openCommit, slot]
  exact List.prefix_rfl

/-- Some of the statements of a schema change that failed: those that ran, and of these the
ones that were accepted.  Not all statements were. -/
structure Cut (statements told taken : List String) : Prop where
  ran : told <+: statements
  accepted : taken <+: told
  short : statements ≠ [] → taken ≠ statements

theorem cut_none (statements : List String) : Cut statements [] [] :=
  ⟨List.nil_prefix, List.prefix_rfl, Ne.symm⟩

theorem cut_take {n : Nat} (short : n < statements.length) :
    Cut statements (statements.take (n + 1)) (statements.take n) := by
  refine ⟨List.take_prefix _ _, (List.prefix_take_le_iff short).2 (Nat.le_succ n), ?_⟩
  intro _ whole
  have lengths := congrArg List.length whole
  rw [List.length_take] at lengths
  omega

/-- A schema change runs its statements, all of them if it succeeds, behind the commit of the
transaction that was open. -/
theorem changeSchema_served (db : Database) (statements : List String) :
    (((changeSchema statements).run db).1 = .ok () →
      ((changeSchema statements).run db).2.transaction = none ∧
        db.Served ((changeSchema statements).run db).2 statements statements) ∧
    ∀ cause, ((changeSchema statements).run db).1 = .error cause →
      ∃ told taken, Cut statements told taken ∧
        db.Served ((changeSchema statements).run db).2 told taken := by
  rw [changeSchema_eq, ExceptT.run_bind_eq]
  cases locked : db.schemaLocked with
  | true =>
      obtain ⟨fault, refused⟩ := lockSchema_refused locked
      rw [refused]
      exact ⟨nofun, fun _ _ => ⟨[], [], cut_none _, served_idle rfl rfl⟩⟩
  | false =>
      cases slot : db.transaction with
      | none =>
          rw [lockSchema_run_of_none locked slot]
          obtain ⟨closed, succeeds, fails⟩ :=
            @proceed_served { db with schemaLocked := true } slot statements
          refine ⟨fun succeeded => ⟨closed, succeeds succeeded⟩, fun cause failed => ?_⟩
          obtain ⟨n, short, served⟩ := fails cause failed
          exact ⟨_, _, cut_take short, served⟩
      | some c =>
          rw [lockSchema_run locked slot, close_run]
          obtain ⟨accepted, refused⟩ := @Recorder.served_execute db.recorder c "COMMIT"
          cases answered : (db.recorder.execute c "COMMIT").1 with
          | error cause =>
              simp only [answered, Except.map]
              refine ⟨nofun, fun _ _ => ⟨[], [], cut_none _, ["COMMIT"], [], ?_, ?_, ?_⟩⟩
              · rw [openCommit, slot]
                exact List.prefix_rfl
              · exact List.nil_prefix
              · exact (refused cause answered).trans (Recorder.served_idle rfl rfl)
          | ok response =>
              simp only [answered, Except.map]
              let between : Database := { db with
                recorder := (db.recorder.execute c "COMMIT").2.release
                transaction := none
                schemaLocked := true }
              have committed : db.recorder.Served between.recorder ["COMMIT"] ["COMMIT"] :=
                (accepted response answered).trans (Recorder.served_idle rfl rfl)
              obtain ⟨closed, succeeds, fails⟩ := @proceed_served between rfl statements
              refine ⟨fun succeeded => ⟨closed, ?_⟩, fun cause failed => ?_⟩
              · exact .behind_commit slot committed rfl (succeeds succeeded)
              · obtain ⟨n, short, served⟩ := fails cause failed
                exact ⟨_, _, cut_take short, .behind_commit slot committed rfl served⟩

/-- The next schema change succeeds. -/
structure Willing (db : Database) : Prop where
  unlocked : db.schemaLocked = false
  obliging : db.recorder.Obliging

theorem Willing.proceed {db : Database} (free : db.transaction = none)
    (obliging : db.recorder.Obliging) (statements : List String) :
    ((proceed statements).run db).1 = .ok () ∧ ((proceed statements).run db).2.Willing := by
  obtain ⟨memo, went⟩ := proceed_run db statements
  rw [went, executeAll_run_of_none free]
  have handed : db.recorder.acquire.2.Obliging := obliging
  obtain ⟨⟨responses, answered⟩, still⟩ := handed.executeAll db.recorder.acquired statements
  exact ⟨by simp only [answered, Except.map], rfl, still⟩

theorem Willing.changeSchema {db : Database} (willing : db.Willing) (statements : List String) :
    ((changeSchema statements).run db).1 = .ok () ∧
      ((changeSchema statements).run db).2.Willing := by
  rw [changeSchema_eq, ExceptT.run_bind_eq]
  cases slot : db.transaction with
  | none =>
      rw [lockSchema_run_of_none willing.unlocked slot]
      let between : Database := { db with schemaLocked := true }
      exact @Willing.proceed between slot willing.obliging statements
  | some c =>
      obtain ⟨⟨response, answered⟩, still⟩ := willing.obliging.execute c "COMMIT"
      rw [lockSchema_run willing.unlocked slot, close_run]
      simp only [answered, Except.map]
      exact Willing.proceed rfl still statements

/-! ## Plans that are carried out one after the other -/

/-- What is planned: statements, nothing, or a refusal. -/
abbrev Intent := Outcome (Option (List String))

/-- The statements of a plan. -/
def Intent.texts : Intent → List String
  | .ok (some statements) => statements
  | _ => []

def carryOut (intent : Intent) : Action Unit := do
  match ← liftM intent with
  | none => return ()
  | some statements => changeSchema statements

/-- Carry out a plan for each item, up to the first that fails.  The items whose plans were not
carried out come out too. -/
def carryEach {α : Type} (intent : α → Intent) :
    List α → Database → Outcome Unit × List α × Database
  | [], db => (.ok (), [], db)
  | a :: rest, db =>
      match (carryOut (intent a)).run db with
      | (.ok _, db) => carryEach intent rest db
      | (.error cause, db) => (.error cause, a :: rest, db)

theorem carryOut_run_some (statements : List String) (db : Database) :
    (carryOut (.ok (some statements))).run db = (changeSchema statements).run db :=
  rfl

theorem carryOut_run_error (cause : Fault) (db : Database) :
    (carryOut (.error cause)).run db = (.error cause, db) :=
  rfl

theorem carryOut_workspace (intent : Intent) (db : Database) :
    ((carryOut intent).run db).2.workspace = db.workspace := by
  rcases intent with cause | _ | statements
  · rfl
  · rfl
  · exact (changeSchema_sound db statements).workspace

variable {α β : Type} {intent : α → Intent}

theorem carryEach_workspace (intent : α → Intent) (items : List α) (db : Database) :
    (carryEach intent items db).2.2.workspace = db.workspace := by
  induction items generalizing db with
  | nil => rfl
  | cons a rest ih =>
      have kept := carryOut_workspace (intent a) db
      rw [carryEach]
      generalize (carryOut (intent a)).run db = ran at kept ⊢
      rcases ran with ⟨_ | _, between⟩
      · exact kept
      · exact (ih between).trans kept

theorem carryEach_append (items more : List α) (db : Database) :
    carryEach intent (items ++ more) db =
      match carryEach intent items db with
      | (.ok _, _, db) => carryEach intent more db
      | (.error cause, left, db) => (.error cause, left ++ more, db) := by
  induction items generalizing db with
  | nil => rfl
  | cons a rest ih =>
      rw [List.cons_append, carryEach, carryEach]
      rcases (carryOut (intent a)).run db with ⟨_ | _, between⟩
      · rfl
      · exact ih between

/-- One plan that is carried out, or cut short. -/
theorem carryOut_served (intent : Intent) (db : Database) :
    (((carryOut intent).run db).1 = .ok () →
      (intent = .ok none ∧ ((carryOut intent).run db).2 = db) ∨
        ((carryOut intent).run db).2.transaction = none ∧
          db.Served ((carryOut intent).run db).2 intent.texts intent.texts) ∧
    ∀ cause, ((carryOut intent).run db).1 = .error cause →
      ∃ told taken, Cut intent.texts told taken ∧
        db.Served ((carryOut intent).run db).2 told taken := by
  rcases intent with cause | _ | statements
  · exact ⟨nofun, fun _ _ => ⟨[], [], cut_none _, served_idle rfl rfl⟩⟩
  · exact ⟨fun _ => .inl ⟨rfl, rfl⟩, nofun⟩
  · obtain ⟨succeeds, fails⟩ := changeSchema_served db statements
    exact ⟨fun succeeded => .inr (succeeds succeeded), fails⟩

/-- All plans are carried out. -/
theorem carryEach_served_ok {items left : List α}
    (ran : carryEach intent items db = (.ok (), left, db')) :
    left = [] ∧ db.Served db' (items.flatMap fun a => (intent a).texts)
      (items.flatMap fun a => (intent a).texts) := by
  induction items generalizing db with
  | nil =>
      cases ran
      exact ⟨rfl, served_idle rfl rfl⟩
  | cons a rest ih =>
      obtain ⟨succeeds, -⟩ := carryOut_served (intent a) db
      rw [carryEach] at ran
      rcases first : (carryOut (intent a)).run db with ⟨_ | _, between⟩
      · rw [first] at ran
        cases ran
      · rw [first] at ran succeeds
        obtain ⟨none, served⟩ := ih ran
        refine ⟨none, ?_⟩
        rw [List.flatMap_cons]
        rcases succeeds rfl with ⟨silent, rfl⟩ | ⟨closed, head⟩
        · rw [silent]
          exact served
        · exact head.behind closed served

/-- The plans in front of one that fails are carried out. -/
theorem carryEach_served_error {items left : List α} {cause : Fault}
    (ran : carryEach intent items db = (.error cause, left, db')) :
    ∃ done a rest told taken, items = done ++ a :: rest ∧ left = a :: rest ∧
      Cut (intent a).texts told taken ∧
      db.Served db' ((done.flatMap fun a => (intent a).texts) ++ told)
        ((done.flatMap fun a => (intent a).texts) ++ taken) := by
  induction items generalizing db with
  | nil => cases ran
  | cons a rest ih =>
      obtain ⟨succeeds, fails⟩ := carryOut_served (intent a) db
      rw [carryEach] at ran
      rcases first : (carryOut (intent a)).run db with ⟨_ | _, between⟩
      · rw [first] at ran fails
        cases ran
        obtain ⟨told, taken, cut, served⟩ := fails cause rfl
        exact ⟨[], a, rest, told, taken, rfl, rfl, cut, served⟩
      · rw [first] at ran succeeds
        obtain ⟨done, b, behind, told, taken, rfl, rfl, cut, served⟩ := ih ran
        refine ⟨a :: done, b, behind, told, taken, rfl, rfl, cut, ?_⟩
        rw [List.flatMap_cons, List.append_assoc, List.append_assoc]
        rcases succeeds rfl with ⟨silent, rfl⟩ | ⟨closed, head⟩
        · rw [silent]
          exact served
        · exact head.behind closed served

/-- No plan that is carried out is a refusal. -/
theorem carryEach_planned {items : List α} (succeeded : (carryEach intent items db).1 = .ok ()) :
    ∀ a ∈ items, ∃ statements, intent a = .ok statements := by
  induction items generalizing db with
  | nil => exact nofun
  | cons a rest ih =>
      rw [carryEach] at succeeded
      rcases first : (carryOut (intent a)).run db with ⟨_ | _, between⟩
      · rw [first] at succeeded
        cases succeeded
      · rw [first] at succeeded
        refine List.forall_mem_cons.2 ⟨?_, ih succeeded⟩
        rcases planned : intent a with cause | statements
        · rw [planned, carryOut_run_error] at first
          cases first
        · exact ⟨statements, rfl⟩

/-- Plans without refusals are carried out if the server answers. -/
theorem Willing.carryEach {items : List α} (willing : db.Willing)
    (intended : ∀ a ∈ items, ∃ statements, intent a = .ok statements) :
    (carryEach intent items db).1 = .ok () ∧ (carryEach intent items db).2.2.Willing := by
  induction items generalizing db with
  | nil => exact ⟨rfl, willing⟩
  | cons a rest ih =>
      rw [List.forall_mem_cons] at intended
      obtain ⟨⟨statements, head⟩, intended⟩ := intended
      rw [Database.carryEach, head]
      cases statements with
      | none => exact ih willing intended
      | some statements =>
          rw [carryOut_run_some]
          obtain ⟨succeeded, still⟩ := willing.changeSchema statements
          rcases first : (Database.changeSchema statements).run db with ⟨_ | _, between⟩
          · rw [first] at succeeded
            cases succeeded
          · rw [first] at still
            exact ih still intended

end Database

end RowQuery
