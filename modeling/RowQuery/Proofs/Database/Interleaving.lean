import RowQuery.Dialect.Builtin
import RowQuery.Proofs.Database.Running

/-!
# Callers that share a database

Calls to a database are asynchronous and take turns on one thread.  A call gives up control
only where it waits, and over recorded connections, which answer at once, the only wait is for
the slot of the transaction.  So every call is one turn, except for a schema change: it takes
the lock in one turn and runs its statements in another, with turns of other callers in
between.  The slot is free between turns.

In every order of turns, and whichever statements fail, a transaction and the schema lock
exclude each other and no connection is lost.
-/

namespace RowQuery

/-- A holder of the schema lock: a caller that took it, or a schema change that has yet to
run its statements. -/
inductive Holder
  | guard
  | change (statements : List String)
  deriving DecidableEq

/-- What happens without interruption.  Besides the turns of callers, the server is set up
to answer a statement, perhaps with a failure. -/
inductive Turn
  | answer (start : String) (reply : Outcome Response)
  | beginTransaction
  | commit
  | rollback
  | execute (sql : String)
  | executeAll (statements : List String)
  | lockSchema
  | unlockSchema
  /-- A schema change takes the lock. -/
  | startChange (statements : List String)
  /-- A schema change runs its statements. -/
  | proceed (statements : List String)
  /-- A schema change is given up while it waits. -/
  | abandon (statements : List String)

namespace Turn

def action : Turn → Action Unit
  | .answer start reply => Database.script start reply
  | .beginTransaction => Database.beginTransaction
  | .commit => Database.commit
  | .rollback => Database.rollback
  | .execute sql => do let _ ← Database.execute sql
  | .executeAll statements => do let _ ← Database.executeAll statements
  | .lockSchema | .startChange _ => Database.lockSchema
  | .unlockSchema | .abandon _ => Database.unlockSchema
  | .proceed statements => Database.proceed statements

/-- Who holds the lock after the turn if it succeeds. -/
def takes : Turn → Option Holder
  | .lockSchema => some .guard
  | .startChange statements => some (.change statements)
  | _ => none

/-- Who holds the lock before the turn, and then no longer. -/
def gives : Turn → Option Holder
  | .unlockSchema => some .guard
  | .proceed statements | .abandon statements => some (.change statements)
  | _ => none

/-- The turn ends a transaction if one is open. -/
def finishes : Turn → Bool
  | .commit | .rollback | .lockSchema | .startChange _ => true
  | _ => false

def holdersAfter (turn : Turn) (outcome : Outcome Unit) (holders : List Holder) : List Holder :=
  let rest := turn.gives.elim holders holders.erase
  match outcome with
  | .ok _ => turn.takes.toList ++ rest
  | .error _ => rest

end Turn

/-- A turn that was taken, with its outcome and the statements that ran. -/
structure Taken where
  turn : Turn
  outcome : Outcome Unit
  ran : List Executed

namespace Taken

/-- The transaction on a connection ends: the turn commits it or rolls it back. -/
def Ends (taken : Taken) (c : Connection) : Prop :=
  taken.turn.finishes = true ∧ (taken.ran = [⟨c, "COMMIT"⟩] ∨ taken.ran = [⟨c, "ROLLBACK"⟩])

/-- A turn while a transaction is open on a connection: all statements run on the
connection, none is the `BEGIN` of another transaction, and none is part of a schema
change. -/
structure Within (taken : Taken) (c : Connection) : Prop where
  onSlot : ∀ statement ∈ taken.ran, statement.connection = c
  noBegin : taken.turn = .beginTransaction → taken.ran = []
  noChange : ∀ statements, taken.turn = .proceed statements → taken.ran = []

end Taken

/-- What a turn can do. -/
inductive Move (before after : Database) (taken : Taken) : Prop
  | passes {n : Nat} (noTake : taken.turn.takes = none ∨ taken.outcome.isOk = false)
      (noGive : taken.turn.gives = none)
      (slot : after.transaction = before.transaction)
      (lock : after.schemaLocked = before.schemaLocked)
      (went : before.recorder.Went after.recorder n n taken.ran)
      (onSlot : ∀ c, before.transaction = some c → ∀ e ∈ taken.ran, e.connection = c)
      (noBegin : taken.turn = .beginTransaction → before.transaction.isSome → taken.ran = [])
      (failed : taken.turn = .beginTransaction → taken.outcome.isOk = false)
  | begins {c : Connection} (begun : taken.turn = .beginTransaction)
      (unlocked : before.schemaLocked = false) (free : before.transaction = none)
      (slot : after.transaction = some c)
      (lock : after.schemaLocked = false)
      (ran : taken.ran = [⟨c, "BEGIN"⟩])
      (went : before.recorder.Went after.recorder 1 0 taken.ran)
  /-- The transaction is over, also if its last statement fails.  The lock is taken only if
  that statement succeeds. -/
  | ends {c : Connection} (noGive : taken.turn.gives = none)
      (opened : before.transaction = some c)
      (slot : after.transaction = none)
      (lock : taken.turn.takes = none ∧ after.schemaLocked = before.schemaLocked ∨
        taken.turn.takes.isSome ∧ before.schemaLocked = false ∧
          after.schemaLocked = taken.outcome.isOk)
      (ends : taken.Ends c)
      (went : before.recorder.Went after.recorder 0 1 taken.ran)
  | locks (takes : taken.turn.takes.isSome) (noGive : taken.turn.gives = none)
      (outcome : taken.outcome = .ok ())
      (free : before.transaction = none)
      (unlocked : before.schemaLocked = false)
      (slot : after.transaction = none)
      (lock : after.schemaLocked = true)
      (went : before.recorder.Went after.recorder 0 0 taken.ran)
  | unlocks {n : Nat} (gives : taken.turn.gives.isSome) (noTake : taken.turn.takes = none)
      (slot : after.transaction = before.transaction)
      (lock : after.schemaLocked = false)
      (went : before.recorder.Went after.recorder n n taken.ran)

theorem Move.executed {before after : Database} {taken : Taken} (move : Move before after taken) :
    after.recorder.executed = before.recorder.executed ++ taken.ran := by
  cases move <;> exact Recorder.Went.executed ‹_›

namespace Turn

/-- A turn can do some of what is listed. -/
def Moves (turn : Turn) (before : Database) : Prop :=
  ∃ ran, Move before (turn.action.run before).2 ⟨turn, (turn.action.run before).1, ran⟩

variable (db : Database)

theorem moves_beginTransaction : beginTransaction.Moves db := by
  by_cases refused : db.schemaLocked = true ∨ db.transaction.isSome
  · obtain ⟨fault, run⟩ := Database.beginTransaction_refused refused
    refine ⟨[], ?_⟩
    rw [action, run]
    exact .passes (.inl rfl) rfl rfl rfl (.self _) (by simp) (fun _ _ => rfl) fun _ => rfl
  · obtain ⟨locked, opened⟩ := not_or.1 refused
    have unlocked : db.schemaLocked = false := by simpa using locked
    have free : db.transaction = none := by simpa using opened
    refine ⟨[⟨db.recorder.acquired, "BEGIN"⟩], ?_⟩
    rw [action, Database.beginTransaction_run unlocked free]
    dsimp only
    cases (db.recorder.acquire.2.execute db.recorder.acquired "BEGIN").1 with
    | ok response => exact .begins rfl unlocked free rfl unlocked rfl ⟨rfl, rfl, rfl⟩
    | error fault =>
        exact .passes (n := 1) (.inl rfl) rfl rfl rfl ⟨rfl, rfl, rfl⟩ (by simp [free])
          (by simp [free]) fun _ => rfl

theorem moves_finish {turn : Turn} {keyword : String}
    (same : turn.action = Database.finish keyword)
    (usual : keyword = "COMMIT" ∨ keyword = "ROLLBACK")
    (finishes : turn.finishes = true) (noTake : turn.takes = none) (noGive : turn.gives = none) :
    turn.Moves db := by
  cases slot : db.transaction with
  | none =>
      obtain ⟨fault, run⟩ := Database.finish_refused slot keyword
      refine ⟨[], ?_⟩
      rw [same, run]
      exact .passes (.inl noTake) noGive rfl rfl (.self _) (by simp) (fun _ _ => rfl) fun _ => rfl
  | some c =>
      refine ⟨[⟨c, keyword⟩], ?_⟩
      rw [same, Database.finish_run slot, Database.close_run]
      have ended : [(⟨c, keyword⟩ : Executed)] = [⟨c, "COMMIT"⟩] ∨
          [(⟨c, keyword⟩ : Executed)] = [⟨c, "ROLLBACK"⟩] := by simpa using usual
      exact .ends noGive slot rfl (.inl ⟨noTake, rfl⟩) ⟨finishes, ended⟩ ⟨rfl, rfl, rfl⟩

theorem moves_executeAll {turn : Turn} {statements : List String}
    (same : (turn.action.run db).2 = ((Database.executeAll statements).run db).2)
    (noTake : turn.takes = none) (noGive : turn.gives = none)
    (noBegin : turn ≠ .beginTransaction) : turn.Moves db := by
  obtain ⟨recorder, taken, c, n, after, went, slot, -⟩ := db.went_executeAll statements
  refine ⟨(statements.take (n + 1)).map (Executed.mk c), ?_⟩
  rw [same, after]
  refine .passes (.inl noTake) noGive rfl rfl went (fun c' opened statement ran => ?_)
    (fun begun => absurd begun noBegin) fun begun => absurd begun noBegin
  obtain ⟨sql, -, rfl⟩ := List.mem_map.1 ran
  exact (slot c' opened).symm

theorem moves_lockSchema {turn : Turn} (same : turn.action = Database.lockSchema)
    (finishes : turn.finishes = true) (takes : turn.takes.isSome) (noGive : turn.gives = none) :
    turn.Moves db := by
  cases locked : db.schemaLocked with
  | true =>
      obtain ⟨fault, run⟩ := Database.lockSchema_refused locked
      refine ⟨[], ?_⟩
      rw [same, run]
      exact .passes (.inr rfl) noGive rfl rfl (.self _) (by simp) (fun _ _ => rfl) fun _ => rfl
  | false =>
      cases slot : db.transaction with
      | none =>
          refine ⟨[], ?_⟩
          rw [same, Database.lockSchema_run_of_none locked slot]
          exact .locks takes noGive rfl slot locked slot rfl (.self _)
      | some c =>
          refine ⟨[⟨c, "COMMIT"⟩], ?_⟩
          rw [same, Database.lockSchema_run locked slot, Database.close_run]
          exact .ends noGive slot rfl (.inr ⟨takes, locked, rfl⟩) ⟨finishes, .inl rfl⟩
            ⟨rfl, rfl, rfl⟩

theorem moves_unlockSchema {turn : Turn} (same : turn.action = Database.unlockSchema)
    (gives : turn.gives.isSome) (noTake : turn.takes = none) : turn.Moves db := by
  refine ⟨[], ?_⟩
  rw [same]
  exact .unlocks gives noTake rfl rfl (.self db.recorder)

theorem moves_proceed (statements : List String) : (proceed statements).Moves db := by
  obtain ⟨memo, run⟩ := db.proceed_run statements
  obtain ⟨recorder, taken, c, n, after, went, -⟩ := db.went_executeAll statements
  refine ⟨(statements.take (n + 1)).map (Executed.mk c), ?_⟩
  rw [action, run]
  dsimp only
  rw [after]
  exact .unlocks rfl rfl rfl rfl went

theorem moves (turn : Turn) : turn.Moves db := by
  cases turn with
  | answer start reply =>
      exact ⟨[], .passes (n := 0) (.inl rfl) rfl rfl rfl ⟨(List.append_nil _).symm, rfl, rfl⟩
        (by simp) (fun _ _ => rfl) nofun⟩
  | beginTransaction => exact moves_beginTransaction db
  | commit => exact moves_finish db rfl (.inl rfl) rfl rfl rfl
  | rollback => exact moves_finish db rfl (.inr rfl) rfl rfl rfl
  | execute sql =>
      exact moves_executeAll db (by rw [action, Action.run_forget, Database.execute_run])
        rfl rfl nofun
  | executeAll statements =>
      exact moves_executeAll db (by rw [action, Action.run_forget]) rfl rfl nofun
  | lockSchema => exact moves_lockSchema db rfl rfl rfl rfl
  | startChange statements => exact moves_lockSchema db rfl rfl rfl rfl
  | unlockSchema => exact moves_unlockSchema db rfl rfl rfl
  | abandon statements => exact moves_unlockSchema db rfl rfl rfl
  | proceed statements => exact moves_proceed db statements

end Turn

/-- A database with the holders of its schema lock. -/
structure Shared where
  db : Database
  holders : List Holder := []

namespace Shared

/-- A turn is taken.  Only a holder gives the lock back. -/
structure Step (s : Shared) (taken : Taken) (after : Shared) : Prop where
  held : ∀ holder ∈ taken.turn.gives, holder ∈ s.holders
  ended : taken.turn.action.run s.db = (taken.outcome, after.db)
  recorded : after.db.recorder.executed = s.db.recorder.executed ++ taken.ran
  holders : after.holders = taken.turn.holdersAfter taken.outcome s.holders

/-- Turns are taken one after the other. -/
inductive Runs : Shared → List Taken → Shared → Prop
  | done (s : Shared) : Runs s [] s
  | step {s between after : Shared} {taken : Taken} {later : List Taken}
      (first : s.Step taken between) (rest : Runs between later after) :
      Runs s (taken :: later) after

theorem Step.move {s after : Shared} {taken : Taken} (step : s.Step taken after) :
    Move s.db after.db taken := by
  obtain ⟨ran, move⟩ := taken.turn.moves s.db
  rw [step.ended] at move
  obtain rfl : ran = taken.ran :=
    List.append_cancel_left (move.executed.symm.trans step.recorded)
  exact move

/-- Every turn for which the lock is held can be taken. -/
theorem exists_step (s : Shared) {turn : Turn}
    (held : ∀ holder ∈ turn.gives, holder ∈ s.holders) :
    ∃ taken after, s.Step taken after ∧ taken.turn = turn := by
  obtain ⟨ran, move⟩ := turn.moves s.db
  exact ⟨⟨turn, (turn.action.run s.db).1, ran⟩, ⟨(turn.action.run s.db).2, _⟩,
    ⟨held, rfl, move.executed, rfl⟩, rfl⟩

/-- What holds between turns. -/
structure Sound (s : Shared) : Prop where
  exclusive : s.db.schemaLocked = true → s.db.transaction = none
  balanced : s.db.recorder.acquired =
    s.db.recorder.released + if s.db.transaction.isSome then 1 else 0
  held : s.holders.length = if s.db.schemaLocked then 1 else 0

section Step

variable {s after : Shared} {taken : Taken}

theorem holdersAfter_of_failed (noGive : taken.turn.gives = none)
    (noTake : taken.turn.takes = none ∨ taken.outcome.isOk = false) (holders : List Holder) :
    taken.turn.holdersAfter taken.outcome holders = holders := by
  unfold Turn.holdersAfter
  rw [noGive]
  cases outcome : taken.outcome with
  | error fault => rfl
  | ok _ =>
      rw [noTake.resolve_right (by simp [outcome, Except.isOk, Except.toBool])]
      rfl

theorem length_holdersAfter_of_taken (noGive : taken.turn.gives = none)
    (takes : taken.turn.takes.isSome) (holders : List Holder) :
    (taken.turn.holdersAfter taken.outcome holders).length =
      holders.length + if taken.outcome.isOk then 1 else 0 := by
  obtain ⟨holder, takes⟩ := Option.isSome_iff_exists.1 takes
  unfold Turn.holdersAfter
  rw [noGive, takes]
  cases taken.outcome <;> rfl

theorem holdersAfter_of_given {holder : Holder} (gives : taken.turn.gives = some holder)
    (noTake : taken.turn.takes = none) (holders : List Holder) :
    taken.turn.holdersAfter taken.outcome holders = holders.erase holder := by
  unfold Turn.holdersAfter
  rw [gives, noTake]
  cases taken.outcome <;> rfl

theorem Step.sound (step : s.Step taken after) (sound : s.Sound) : after.Sound := by
  have exclusive := sound.exclusive
  have balanced := sound.balanced
  have held := sound.held
  have holders := step.holders
  cases step.move with
  | passes noTake noGive slot lock went =>
      rw [holdersAfter_of_failed noGive noTake] at holders
      refine ⟨by rwa [slot, lock], ?_, by rw [holders, held, lock]⟩
      rw [slot, went.acquired, went.released, balanced]
      omega
  | begins begun unlocked free slot lock ran went =>
      rw [holdersAfter_of_failed (by rw [begun]; rfl) (.inl (by rw [begun]; rfl))] at holders
      refine ⟨by simp [lock], ?_, by rw [holders, held, lock, unlocked]⟩
      rw [went.acquired, went.released, balanced, free, slot]
      rfl
  | ends noGive opened slot lock ends went =>
      refine ⟨fun _ => slot, ?_, ?_⟩
      · rw [went.acquired, went.released, balanced, opened, slot]
        rfl
      · rcases lock with ⟨noTake, lock⟩ | ⟨takes, unlocked, lock⟩
        · rw [holders, holdersAfter_of_failed noGive (.inl noTake), held, lock]
        · rw [holders, length_holdersAfter_of_taken noGive takes, held, unlocked, lock]
          simp
  | locks takes noGive outcome free unlocked slot lock went =>
      refine ⟨fun _ => slot, ?_, ?_⟩
      · rw [went.acquired, went.released, balanced, free, slot]
        rfl
      · rw [holders, length_holdersAfter_of_taken noGive takes, held, unlocked, lock, outcome]
        rfl
  | unlocks gives noTake slot lock went =>
      obtain ⟨holder, gives⟩ := Option.isSome_iff_exists.1 gives
      have member := step.held holder gives
      refine ⟨by simp [lock], ?_, ?_⟩
      · rw [slot, went.acquired, went.released, balanced]
        omega
      · rw [holders, holdersAfter_of_given gives noTake, List.length_erase_of_mem member, held]
        split <;> simp [lock]

/-- While a transaction is open, a turn ends it or keeps to its connection. -/
theorem Step.ends_or_within (step : s.Step taken after) (sound : s.Sound) {c : Connection}
    (opened : s.db.transaction = some c) :
    taken.Ends c ∨ taken.Within c ∧ after.db.transaction = some c := by
  have unlocked : s.db.schemaLocked = false := by
    cases locked : s.db.schemaLocked with
    | false => rfl
    | true => simpa [opened] using sound.exclusive locked
  have noHolder : taken.turn.gives = none := by
    cases gives : taken.turn.gives with
    | none => rfl
    | some holder =>
        have empty : s.holders = [] := by simpa [unlocked] using sound.held
        simpa [empty] using step.held holder gives
  cases step.move with
  | passes noTake noGive slot lock went onSlot noBegin =>
      refine .inr ⟨⟨onSlot c opened, fun begun => noBegin begun (by simp [opened]), ?_⟩,
        slot.trans opened⟩
      rintro statements change
      simp [change, Turn.gives] at noHolder
  | begins begun unlocked free => simp [opened] at free
  | ends noGive found slot lock ends =>
      obtain rfl : _ = c := Option.some.inj (found.symm.trans opened)
      exact .inl ends
  | locks takes noGive outcome free => simp [opened] at free
  | unlocks gives => simp [noHolder] at gives

/-- A transaction that begins is open from then on. -/
theorem Step.opens (step : s.Step taken after) (begun : taken.turn = .beginTransaction)
    (succeeded : taken.outcome = .ok ()) :
    ∃ c, taken.ran = [⟨c, "BEGIN"⟩] ∧ after.db.transaction = some c := by
  cases step.move with
  | passes noTake noGive slot lock went onSlot noBegin failed =>
      have impossible := failed begun
      rw [succeeded] at impossible
      cases impossible
  | @begins c _ _ _ slot _ ran => exact ⟨c, ran, slot⟩
  | ends noGive opened slot lock ends =>
      have impossible := ends.1
      rw [begun] at impossible
      cases impossible
  | locks takes => simp [begun, Turn.takes] at takes
  | unlocks gives => simp [begun, Turn.gives] at gives

/-- A call that did not get the lock leaves it as it was. -/
theorem Step.lock_of_failed (step : s.Step taken after) (takes : taken.turn.takes.isSome)
    (failed : taken.outcome.isOk = false) :
    after.db.schemaLocked = s.db.schemaLocked ∧ after.holders = s.holders := by
  have noGive : taken.turn.gives = none := by
    cases turn : taken.turn <;> simp_all [Turn.takes, Turn.gives]
  refine ⟨?_, step.holders.trans (holdersAfter_of_failed noGive (.inr failed) _)⟩
  cases step.move with
  | passes noTake noGive slot lock => exact lock
  | begins begun => simp [begun, Turn.takes] at takes
  | ends noGive opened slot lock =>
      rcases lock with ⟨noTake, lock⟩ | ⟨-, unlocked, lock⟩
      · exact lock
      · rw [lock, failed, unlocked]
  | locks takes noGive outcome => simp [outcome, Except.isOk, Except.toBool] at failed
  | unlocks gives => simp [noGive] at gives

/-- A call that gives the lock back leaves it free. -/
theorem Step.unlocked_of_given (step : s.Step taken after) (sound : s.Sound)
    (gives : taken.turn.gives.isSome) :
    after.db.schemaLocked = false ∧ after.holders = [] := by
  have unlocked : after.db.schemaLocked = false := by
    cases step.move with
    | unlocks gives noTake slot lock => exact lock
    | passes noTake noGive => simp [noGive] at gives
    | begins begun => simp [begun, Turn.gives] at gives
    | ends noGive => simp [noGive] at gives
    | locks takes noGive => simp [noGive] at gives
  refine ⟨unlocked, ?_⟩
  simpa [unlocked] using (step.sound sound).held

end Step

/-- A database that nobody uses, whatever it was set up to answer. -/
structure Unused (db : Database) : Prop where
  closed : db.transaction = none
  unlocked : db.schemaLocked = false
  returned : db.recorder.acquired = db.recorder.released

theorem Unused.sound {db : Database} (unused : Unused db) : Sound ⟨db, []⟩ where
  exclusive _ := unused.closed
  balanced := by simp [unused.closed, unused.returned]
  held := by simp [unused.unlocked]

section Runs

variable {s after : Shared} {later : List Taken}

theorem Runs.sound (runs : Runs s later after) (sound : s.Sound) : after.Sound := by
  induction runs with
  | done => exact sound
  | step first rest ih => exact ih (first.sound sound)

/-- As long as no turn ends the transaction, all turns keep to its connection. -/
theorem Runs.within (runs : Runs s later after) (sound : s.Sound) {c : Connection}
    (opened : s.db.transaction = some c) (unended : ∀ taken ∈ later, ¬taken.Ends c) :
    (∀ taken ∈ later, taken.Within c) ∧ after.db.transaction = some c := by
  induction runs with
  | done => exact ⟨by simp, opened⟩
  | step first rest ih =>
      rw [List.forall_mem_cons] at unended ⊢
      obtain ⟨within, still⟩ := (first.ends_or_within sound opened).resolve_left unended.1
      obtain ⟨others, last⟩ := ih (first.sound sound) still unended.2
      exact ⟨⟨within, others⟩, last⟩

end Runs

section Commit

/-- A database whose server fails to commit once. -/
def brittle : Database where
  workspace := { dialect := .ansi, functions := {} }
  recorder := Recorder.scripted {} "COMMIT" (.error (.connection "lost"))

/-- A transaction begins, and taking the lock fails since it cannot be committed. -/
def failedLock : List Taken :=
  [⟨.beginTransaction, .ok (), [⟨0, "BEGIN"⟩]⟩,
    ⟨.lockSchema, .error (.connection "lost"), [⟨0, "COMMIT"⟩]⟩]

end Commit

end Shared

end RowQuery
