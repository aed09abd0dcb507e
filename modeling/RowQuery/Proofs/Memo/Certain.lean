import RowQuery.Proofs.Database.Refilter
import RowQuery.Proofs.Memo.Transparency
import RowQuery.Proofs.Table.WriteStatement

/-!
# Statements that do not depend on what is remembered

A computation with a memo is certain if it ends in the same way whichever right answers the
memo remembers already.  Statements are certain as long as their restrictions are requests
whose keys decide what they compile to.
-/

namespace RowQuery

open RestrictionRequest

section Memoized

variable (w : Workspace) (among : RestrictionRequest → Prop) {α β : Type}

/-- The computation has this outcome, whichever right answers are remembered. -/
def Memoized.Yields (m : Memoized α) (outcome : Outcome α) : Prop :=
  ∀ memo, Remembers w among memo →
    ∃ memo', m.run (some memo) = (outcome, some memo') ∧ Remembers w among memo'

/-- The computation has the same outcome, whichever right answers are remembered. -/
def Memoized.Certain (m : Memoized α) : Prop :=
  ∃ outcome, m.Yields w among outcome

end Memoized

namespace Memoized

variable {w : Workspace} {among : RestrictionRequest → Prop} {α β : Type}

theorem certain_pure (a : α) : Certain w among (pure a) :=
  ⟨.ok a, fun memo remembers => ⟨memo, rfl, remembers⟩⟩

theorem certain_throw (cause : Fault) : Certain w among (throw cause : Memoized α) :=
  ⟨.error cause, fun memo remembers => ⟨memo, rfl, remembers⟩⟩

theorem certain_throw_bind (cause : Fault) (rest : α → Memoized β) :
    Certain w among (throw cause >>= rest) :=
  ⟨.error cause, fun memo remembers => ⟨memo, rfl, remembers⟩⟩

theorem certain_liftM (outcome : Outcome α) : Certain w among (liftM outcome : Memoized α) :=
  ⟨outcome, fun memo remembers => ⟨memo, by cases outcome <;> rfl, remembers⟩⟩

theorem Certain.bind {m : Memoized α} {rest : α → Memoized β} (first : Certain w among m)
    (then_ : ∀ a, Certain w among (rest a)) : Certain w among (m >>= rest) := by
  obtain ⟨outcome, yields⟩ := first
  cases outcome with
  | error cause =>
      refine ⟨.error cause, fun memo remembers => ?_⟩
      obtain ⟨memo', run, remembers⟩ := yields memo remembers
      exact ⟨memo', by rw [ExceptT.run_bind_eq, run], remembers⟩
  | ok a =>
      obtain ⟨outcome, yieldsRest⟩ := then_ a
      refine ⟨outcome, fun memo remembers => ?_⟩
      obtain ⟨memo', run, remembers⟩ := yields memo remembers
      obtain ⟨memo'', runRest, remembers⟩ := yieldsRest memo' remembers
      refine ⟨memo'', ?_, remembers⟩
      rw [ExceptT.run_bind_eq, run]
      exact runRest

variable (decided : KeysDecide w among)

include decided

theorem yields_restriction {r : RestrictionRequest} (inSet : among r) :
    Yields w among (w.restriction r.bindings r.e r.arguments) (r.afresh w) := by
  intro memo remembers
  obtain ⟨answer, remembers⟩ := remembers.fetch decided inSet
  rw [← answer]
  exact ⟨_, rfl, remembers⟩

theorem certain_restriction {r : RestrictionRequest} (inSet : among r) :
    Certain w among (w.restriction r.bindings r.e r.arguments) :=
  ⟨_, yields_restriction decided inSet⟩

end Memoized

/-- The expressions on which the joins of a relation are made. -/
def Relation.paths : Relation → List Lambda
  | table _ => []
  | join _ left right path => left.paths ++ right.paths ++ path.toList

namespace Workspace

variable {w : Workspace} {among : RestrictionRequest → Prop}

/-- The requests for some expressions on tables of a set are in the set of requests. -/
def Covers (among : RestrictionRequest → Prop) (known : Table → Prop) (arguments : Arguments)
    (e : Lambda) : Prop :=
  ∀ bindings : List Binding, (∀ b ∈ bindings, known b.table) → among ⟨bindings, e, arguments⟩

variable (decided : KeysDecide w among) {known : Table → Prop} {arguments : Arguments}

include decided

theorem certain_joinCondition {path : Option Lambda}
    (asks : ∀ e ∈ path, Covers among known arguments e) {near far : List Binding}
    (nearKnown : ∀ b ∈ near, known b.table) (farKnown : ∀ b ∈ far, known b.table) :
    Memoized.Certain w among (w.joinCondition arguments path near far) := by
  unfold joinCondition
  cases path with
  | some e =>
      have inSet := asks e rfl (near ++ far) (List.forall_mem_append.2 ⟨nearKnown, farKnown⟩)
      refine (Memoized.certain_restriction decided inSet).bind fun compiled => ?_
      split
      · exact Memoized.certain_pure _
      · exact Memoized.certain_throw _
  | none =>
      dsimp only
      split
      · exact Memoized.certain_pure _
      · exact Memoized.certain_throw _

theorem certain_relationText {r : Relation} (asks : ∀ e ∈ r.paths, Covers among known arguments e)
    {bindings : List Binding} (allKnown : ∀ b ∈ bindings, known b.table) :
    Memoized.Certain w among (w.relationText arguments r bindings) := by
  induction r generalizing bindings with
  | table t => exact Memoized.certain_pure _
  | join kind left right path ihLeft ihRight =>
      simp only [Relation.paths, List.forall_mem_append] at asks
      obtain ⟨⟨asksLeft, asksRight⟩, asksPath⟩ := asks
      have near : ∀ b ∈ bindings.take left.size, known b.table := fun b member =>
        allKnown b (List.mem_of_mem_take member)
      have far : ∀ b ∈ bindings.drop left.size, known b.table := fun b member =>
        allKnown b (List.mem_of_mem_drop member)
      refine (ihLeft asksLeft near).bind fun leftText => ?_
      refine (ihRight asksRight far).bind fun rightText => ?_
      have asksPath : ∀ e ∈ path, Covers among known arguments e := by simpa using asksPath
      refine (certain_joinCondition decided asksPath near far).bind fun condition => ?_
      exact Memoized.certain_pure _

theorem certain_queryRestriction {q : Query}
    (asks : ∀ e ∈ q.restriction, Covers among known q.arguments e) {bindings : List Binding}
    (allKnown : ∀ b ∈ bindings, known b.table) (strict : Bool) (selection : Selection) :
    Memoized.Certain w among (w.queryRestriction strict bindings q selection) := by
  unfold queryRestriction
  cases restriction : q.restriction with
  | none => exact Memoized.certain_pure _
  | some e =>
      have inSet := asks e restriction bindings allKnown
      refine (Memoized.certain_restriction decided inSet).bind fun compiled => ?_
      dsimp only
      split
      · split
        · exact Memoized.certain_throw_bind _ _
        · exact Memoized.certain_pure _
      · exact Memoized.certain_pure _

theorem certain_select {q : Query} (inReach : ∀ t ∈ q.relation.tables, known t)
    (asks : ∀ e ∈ q.restriction, Covers among known q.arguments e)
    (asksPaths : ∀ e ∈ q.relation.paths, Covers among known q.arguments e) (strict : Bool) :
    Memoized.Certain w among (w.select strict q) := by
  have allKnown : ∀ b ∈ q.relation.bindings, known b.table := by
    intro b member
    refine inReach _ ?_
    rw [← Relation.map_table_bindings]
    exact List.mem_map_of_mem member
  unfold select
  refine (certain_relationText decided asksPaths allKnown).bind fun relation => ?_
  refine (Memoized.certain_liftM _).bind fun selection => ?_
  dsimp only
  split
  · exact Memoized.certain_throw_bind _ _
  · refine (certain_queryRestriction decided asks allKnown strict selection).bind fun clause => ?_
    refine (Memoized.certain_liftM _).bind fun order => ?_
    exact Memoized.certain_pure _

theorem certain_exactWhere {t : Table} (inReach : known t) {restriction : Option Lambda}
    (asks : ∀ e ∈ restriction, Covers among known arguments e) (keyword : String) :
    Memoized.Certain w among (w.exactWhere t restriction arguments keyword) := by
  unfold exactWhere
  cases restriction with
  | none => exact Memoized.certain_pure _
  | some e =>
      have inSet := asks e rfl [.ofTable t] (by simpa [Binding.ofTable] using inReach)
      refine (Memoized.certain_restriction decided inSet).bind fun compiled => ?_
      split
      · exact Memoized.certain_pure _
      · exact Memoized.certain_throw _

theorem certain_update {t : Table} (inReach : known t) {restriction : Option Lambda}
    (asks : ∀ e ∈ restriction, Covers among known arguments e)
    (assignments : List (String × Assignment)) :
    Memoized.Certain w among (w.update t assignments restriction arguments) := by
  unfold update
  split
  · exact Memoized.certain_throw_bind _ _
  · refine (Memoized.certain_liftM _).bind fun sets => ?_
    refine (certain_exactWhere decided inReach asks _).bind fun clause => ?_
    exact Memoized.certain_pure _

theorem certain_delete {t : Table} (inReach : known t) {restriction : Option Lambda}
    (asks : ∀ e ∈ restriction, Covers among known arguments e) :
    Memoized.Certain w among (w.delete t restriction arguments) :=
  (certain_exactWhere decided inReach asks _).bind fun _ => Memoized.certain_pure _

end Workspace

end RowQuery

/-!
# Actions that do not depend on what is remembered

An action on a database is certain if it ends in the same way, and leaves the same but for the
memo, whichever right answers the memo remembers.  The actions that read and change rows are
certain as long as all their restrictions are requests whose keys decide what they compile to.
-/

namespace RowQuery

open RestrictionRequest

section Action

variable (w : Workspace) (among : RestrictionRequest → Prop) {α : Type}

/-- On a database the action has this outcome and leads to another database, whichever right
answers are remembered, and remembers right answers. -/
structure Action.Leads (action : Action α) (db : Database) (outcome : Outcome α)
    (after : Database) : Prop where
  workspace : after.workspace = w
  run : ∀ memo, Remembers w among memo → ∃ memo',
    action.run { db with memo } = (outcome, { after with memo := memo' }) ∧
      Remembers w among memo'

/-- On a database the action ends in the same way, whichever right answers are remembered. -/
def Action.Certain (action : Action α) (db : Database) : Prop :=
  ∃ outcome after, action.Leads w among db outcome after

end Action

theorem RestrictionRequest.remembers_clear {w : Workspace} {among : RestrictionRequest → Prop}
    (memo : Memo) : Remembers w among memo.clear :=
  fun _ member => absurd member (by simp [Memo.clear])

namespace Action

variable {w : Workspace} {among : RestrictionRequest → Prop} {α β : Type} {db : Database}
  (same : db.workspace = w)

include same

theorem certain_pure (a : α) : Certain w among (pure a) db :=
  ⟨.ok a, db, same, fun memo remembers => ⟨memo, rfl, remembers⟩⟩

theorem certain_throw (cause : Fault) : Certain w among (throw cause : Action α) db :=
  ⟨.error cause, db, same, fun memo remembers => ⟨memo, rfl, remembers⟩⟩

theorem certain_throw_bind (cause : Fault) (rest : α → Action β) :
    Certain w among (throw cause >>= rest) db :=
  ⟨.error cause, db, same, fun memo remembers => ⟨memo, rfl, remembers⟩⟩

theorem certain_liftM (outcome : Outcome α) : Certain w among (liftM outcome : Action α) db :=
  ⟨outcome, db, same, fun memo remembers => ⟨memo, by cases outcome <;> rfl, remembers⟩⟩

theorem certain_liftM_bind {outcome : Outcome α} {rest : α → Action β}
    (then_ : ∀ a, outcome = .ok a → Certain w among (rest a) db) :
    Certain w among ((liftM outcome : Action α) >>= rest) db := by
  cases outcome with
  | error cause => exact ⟨.error cause, db, same, fun memo remembers => ⟨memo, rfl, remembers⟩⟩
  | ok a => exact then_ a rfl

theorem leads_write {compile : Workspace → Memoized α} {outcome : Outcome α}
    (yields : (compile w).Yields w among outcome) : Leads w among (write compile) db outcome db := by
  refine ⟨same, fun memo remembers => ?_⟩
  obtain ⟨memo', run, remembers⟩ := yields memo remembers
  refine ⟨memo', ?_, remembers⟩
  change (((compile db.workspace).run (some memo)).1,
    { db with memo := ((compile db.workspace).run (some memo)).2.getD memo }) = _
  rw [same, run]
  rfl

theorem certain_write {compile : Workspace → Memoized α} (certain : (compile w).Certain w among) :
    Certain w among (write compile) db := by
  obtain ⟨outcome, yields⟩ := certain
  exact ⟨outcome, db, leads_write same yields⟩

/-- An action that the memo has no part in. -/
theorem certain_of_memoless {action : Action α} (keeps : KeepsWorkspace action)
    (memoless : ∀ memo, action.run { db with memo } =
      ((action.run db).1, { (action.run db).2 with memo })) : Certain w among action db :=
  ⟨_, _, (keeps db).trans same, fun memo remembers => ⟨memo, memoless memo, remembers⟩⟩

omit same

theorem Leads.bind_certain {action : Action α} {rest : α → Action β} {a : α}
    {between : Database} (led : Leads w among action db (.ok a) between)
    (then_ : Certain w among (rest a) between) : Certain w among (action >>= rest) db := by
  obtain ⟨outcome, after, ledRest⟩ := then_
  refine ⟨outcome, after, ledRest.workspace, fun memo remembers => ?_⟩
  obtain ⟨memo', run, remembers⟩ := led.run memo remembers
  obtain ⟨memo'', runRest, remembers⟩ := ledRest.run memo' remembers
  refine ⟨memo'', ?_, remembers⟩
  rw [ExceptT.run_bind_eq, run]
  exact runRest

theorem Certain.bind {action : Action α} {rest : α → Action β}
    (first : Certain w among action db)
    (then_ : ∀ a after, Leads w among action db (.ok a) after → Certain w among (rest a) after) :
    Certain w among (action >>= rest) db := by
  obtain ⟨outcome, between, led⟩ := first
  cases outcome with
  | error cause =>
      refine ⟨.error cause, between, led.workspace, fun memo remembers => ?_⟩
      obtain ⟨memo', run, remembers⟩ := led.run memo remembers
      exact ⟨memo', by rw [ExceptT.run_bind_eq, run], remembers⟩
  | ok a => exact led.bind_certain (then_ a between led)

theorem Certain.attempt {action : Action α} (certain : Certain w among action db) :
    Certain w among (attempt action) db := by
  obtain ⟨outcome, after, led⟩ := certain
  refine ⟨.ok outcome, after, led.workspace, fun memo remembers => ?_⟩
  obtain ⟨memo', run, remembers⟩ := led.run memo remembers
  refine ⟨memo', ?_, remembers⟩
  change (Except.ok (action.run { db with memo }).1, (action.run { db with memo }).2) = _
  rw [run]

theorem certain_get_bind {rest : Database → Action α}
    (blind : ∀ memo, rest { db with memo } = rest db) (certain : Certain w among (rest db) db) :
    Certain w among (get >>= rest) db := by
  obtain ⟨outcome, after, led⟩ := certain
  refine ⟨outcome, after, led.workspace, fun memo remembers => ?_⟩
  obtain ⟨memo', run, remembers⟩ := led.run memo remembers
  refine ⟨memo', ?_, remembers⟩
  rw [run_get_bind, blind]
  exact run

end Action

namespace Database

open RowQuery.Action

theorem executeAll_run_with_memo (db : Database) (statements : List String) (memo : Memo) :
    (executeAll statements).run { db with memo } =
      let served := (executeAll statements).run db
      (served.1, { served.2 with memo }) := by
  obtain ⟨_, _, _, _, slot, _⟩ := db
  cases slot <;> rfl

/-- The database with nothing remembered. -/
def forgetting (db : Database) : Database :=
  { db with memo := db.memo.clear }

variable {w : Workspace} {among : RestrictionRequest → Prop} {db : Database}
  (same : db.workspace = w)

include same

theorem certain_executeAll (statements : List String) :
    Certain w among (executeAll statements) db :=
  certain_of_memoless same (keepsWorkspace_executeAll statements)
    (executeAll_run_with_memo db statements)

theorem certain_execute (sql : String) : Certain w among (execute sql) db :=
  certain_of_memoless same (keepsWorkspace_execute sql) (execute_run_with_memo db sql)

variable (decided : KeysDecide w among) {known : Table → Prop} {q : Query}
  (inReach : ∀ t ∈ q.relation.tables, known t)
  (asks : ∀ e ∈ q.restriction, Workspace.Covers among known q.arguments e)
  (asksPaths : ∀ e ∈ q.relation.paths, Workspace.Covers among known q.arguments e)

include decided inReach asks asksPaths

theorem certain_selectStatement : Certain w among (selectStatement q) db :=
  certain_get_bind (fun _ => rfl)
    (certain_write same (Workspace.certain_select decided inReach asks asksPaths db.strict))

theorem certain_select : Certain w among (select q) db := by
  unfold select
  refine (certain_selectStatement same decided inReach asks asksPaths).bind fun compiled db' led =>
    ?_
  have same := led.workspace
  dsimp only
  split
  · exact certain_throw_bind same _ _
  · refine (certain_execute same _).bind fun response db' led => ?_
    have same := led.workspace
    refine (certain_liftM same _).bind fun rows db' led => ?_
    have same := led.workspace
    split
    · split
      · exact certain_pure same _
      · exact certain_get_bind (fun _ => rfl) (certain_liftM same _)
    · exact certain_pure same _

end Database

namespace Table

open RowQuery.Action

variable {w : Workspace} {among : RestrictionRequest → Prop} {db : Database}
  (same : db.workspace = w)

include same

theorem certain_executeCounting (sql : String) : Certain w among (executeCounting sql) db :=
  (Database.certain_execute same sql).bind fun _ _ led => certain_pure led.workspace _

theorem certain_executeAllCounting (statements : List String) :
    Certain w among (executeAllCounting statements) db := by
  unfold executeAllCounting
  split
  · exact certain_pure same _
  · refine (Database.certain_executeAll same statements).bind fun responses _ led => ?_
    exact certain_pure led.workspace _

variable (decided : KeysDecide w among) {known : Table → Prop} {t : Table} (inReach : known t)

include decided inReach

theorem certain_save {row : Row}
    (asks : ∀ key, t.keyRestriction row = .ok key → Workspace.Covers among known [] key) :
    Certain w among (t.save row) db := by
  unfold save
  refine certain_liftM_bind same fun key made => ?_
  dsimp only
  split
  · exact certain_pure same _
  · have asksKey : ∀ e ∈ some key, Workspace.Covers among known [] e := by simpa using asks key made
    refine (certain_write same (Workspace.certain_update decided inReach asksKey _)).bind ?_
    exact fun sql _ led => certain_executeCounting led.workspace sql

theorem certain_delete {row : Row}
    (asks : ∀ key, t.keyRestriction row = .ok key → Workspace.Covers among known [] key) :
    Certain w among (t.delete row) db := by
  unfold delete
  refine certain_liftM_bind same fun key made => ?_
  have asksKey : ∀ e ∈ some key, Workspace.Covers among known [] e := by simpa using asks key made
  refine (certain_write same (Workspace.certain_delete decided inReach asksKey)).bind ?_
  exact fun sql _ led => certain_executeCounting led.workspace sql

variable {restriction : Option Lambda} {arguments : Arguments}
  (asks : ∀ e ∈ restriction, Workspace.Covers among known arguments e)

include asks

theorem certain_selectAll : Certain w among (t.selectAll restriction arguments) db :=
  Database.certain_select same decided (q := t.query restriction arguments)
    (by simpa [query, Relation.tables] using inReach) asks (by simp [query, Relation.paths])

theorem leads_isInexact :
    ∃ inexact, Leads w among (t.isInexact restriction arguments) db (.ok inexact) db := by
  unfold isInexact
  cases restriction with
  | none => exact ⟨false, same, fun memo remembers => ⟨memo, rfl, remembers⟩⟩
  | some e =>
      have inSet := asks e rfl [.ofTable t] (by simpa [Binding.ofTable] using inReach)
      obtain ⟨outcome, yields⟩ := Memoized.certain_restriction decided inSet
      have led : Leads w among (write fun w => w.restriction [.ofTable t] e arguments) db outcome db :=
        leads_write same yields
      refine ⟨outcome.toOption.any fun found => !found.exact, same, fun memo remembers => ?_⟩
      obtain ⟨memo', run, remembers⟩ := led.run memo remembers
      refine ⟨memo', ?_, remembers⟩
      dsimp only
      rw [run_attempt_bind, run]
      cases outcome <;> rfl

theorem certain_selectFirst : Certain w among (t.selectFirst restriction arguments) db := by
  obtain ⟨inexact, led⟩ := leads_isInexact same decided inReach asks
  refine Certain.bind ⟨_, _, led⟩ fun inexact db' led => ?_
  have same := led.workspace
  refine Certain.bind ?_ fun rows _ led => certain_pure led.workspace _
  cases inexact with
  | true => exact certain_selectAll same decided inReach asks
  | false =>
      exact Database.certain_select same decided
        (q := { t.query restriction arguments with limit := some 1 })
        (by simpa [query, Relation.tables] using inReach) asks (by simp [query, Relation.paths])

theorem certain_fallbackRows (keyword : String) :
    Certain w among (t.fallbackRows restriction arguments keyword) db := by
  unfold fallbackRows
  split
  · exact certain_throw_bind same _ _
  · exact certain_selectAll same decided inReach asks

end Table

namespace BulkWrite

open RowQuery.Action

theorem action_eq_of_option (write : BulkWrite) (t : Table) (restriction : Option Lambda)
    (arguments : Arguments) :
    write.action t restriction arguments = (do
      if ← t.isInexact restriction arguments then
        let rows ← t.fallbackRows restriction arguments write.keyword
        let statements ← t.statementsByKey
          (fun key w => write.statement w t (some key) (write.keyArguments arguments)) rows
        Table.executeAllCounting statements
      else
        let sql ← Action.write fun w => write.statement w t restriction arguments
        Table.executeCounting sql) := by
  cases write <;> rfl

variable {w : Workspace} {among : RestrictionRequest → Prop} {db : Database}
  (same : db.workspace = w) (decided : KeysDecide w among) {known : Table → Prop} {t : Table}
  (inReach : known t) (write : BulkWrite) {arguments : Arguments}

include same decided inReach

theorem certain_statement {restriction : Option Lambda}
    (asks : ∀ e ∈ restriction, Workspace.Covers among known arguments e) :
    Certain w among (Action.write fun w => write.statement w t restriction arguments) db := by
  refine certain_write same ?_
  cases write with
  | save assignments => exact Workspace.certain_update decided inReach asks assignments
  | delete => exact Workspace.certain_delete decided inReach asks

theorem certain_statementsByKey {rows : List Row}
    (asks : ∀ row ∈ rows, ∀ key, t.keyRestriction row = .ok key →
      Workspace.Covers among known arguments key) :
    Certain w among
      (t.statementsByKey (fun key w => write.statement w t (some key) arguments) rows) db := by
  induction rows generalizing db with
  | nil => exact certain_pure same _
  | cons row rows ih =>
      rw [List.forall_mem_cons] at asks
      refine certain_liftM_bind same fun key made => ?_
      have asksKey : ∀ e ∈ some key, Workspace.Covers among known arguments e := by
        simpa using asks.1 key made
      refine (certain_statement same decided inReach write asksKey).bind fun sql db' led => ?_
      refine (ih led.workspace asks.2).bind fun sqls db' led => ?_
      exact certain_pure led.workspace _

theorem certain_action {restriction : Option Lambda}
    (asks : ∀ e ∈ restriction, Workspace.Covers among known arguments e)
    (asksKeys : ∀ rows, ((t.selectAll restriction arguments).run db.forgetting).1 = .ok rows →
      ∀ row ∈ rows, ∀ key, t.keyRestriction row = .ok key →
        Workspace.Covers among known (write.keyArguments arguments) key) :
    Certain w among (write.action t restriction arguments) db := by
  rw [action_eq_of_option]
  obtain ⟨inexact, led⟩ := Table.leads_isInexact same decided inReach asks
  refine led.bind_certain ?_
  cases inexact with
  | false =>
      refine (certain_statement same decided inReach write asks).bind fun sql db' led => ?_
      exact Table.certain_executeCounting led.workspace sql
  | true =>
      refine (Table.certain_fallbackRows same decided inReach asks _).bind fun rows db' led => ?_
      have fetched : ((t.selectAll restriction arguments).run db.forgetting).1 = .ok rows := by
        obtain ⟨memo, run, -⟩ := led.run db.memo.clear (remembers_clear db.memo)
        unfold Table.fallbackRows at run
        split at run
        · cases run
        · exact congrArg Prod.fst run
      have asksKeys := asksKeys rows fetched
      refine (certain_statementsByKey led.workspace decided inReach write asksKeys).bind ?_
      exact fun statements db' led => Table.certain_executeAllCounting led.workspace statements

end BulkWrite

end RowQuery
