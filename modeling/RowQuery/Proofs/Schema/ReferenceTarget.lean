import Mathlib.Data.List.Induction
import RowQuery.Proofs.Schema.FailedOperation
import RowQuery.Proofs.Table.WellFormed

/-!
# What references refer to

A reference names its table, and a name can pass from one table to another.  Tables are told
apart here by identities, which they keep while they are renamed, so that it can be said which
table a reference was declared against and which one it designates.  Renaming turns the
references to a table.  But a reference whose table is dropped stays behind, and the next table
that gets the name captures it.
-/

namespace RowQuery

/-- A schema with the identity of the table under each name. -/
structure Population (ι : Type) where
  schema : Schema
  owner : String → Option ι

namespace Population

open Schema

variable {ι : Type}

/-- The calls by which tables come, go and change their names. -/
inductive Call (ι : Type) where
  /-- A table, with its identity. -/
  | addTable (t : Table) (i : ι)
  | addView (v : View)
  | renameTable (old new : String)
  | dropTable (name : String)

def Call.session : Call ι → Session Unit
  | .addTable t _ => Schema.addTable t
  | .addView v => Schema.addView v
  | .renameTable old new => Schema.renameTable old new
  | .dropTable name => Schema.dropTable name

/-- Who has which name after a call that succeeds. -/
def Call.owner (before : String → Option ι) : Call ι → String → Option ι
  | .addTable t i => fun name => if name = t.name then some i else before name
  | .addView _ => before
  | .renameTable old new => fun name =>
      if name = new then before old else if name = old then none else before name
  | .dropTable dropped => fun name => if name = dropped then none else before name

/-- The population after a call. -/
def after (p : Population ι) (call : Call ι) : Population ι :=
  let ran := call.session.run p.schema
  { schema := ran.2, owner := if ran.1.isOk then call.owner p.owner else p.owner }

/-- The population after some calls, each of which may fail. -/
def run (p : Population ι) (calls : List (Call ι)) : Population ι :=
  calls.foldl after p

/-- Tables are kept under their names, which they share with no views. -/
structure Sound (p : Population ι) : Prop where
  tidy : p.schema.Tidy
  owned : ∀ name, (p.owner name).isSome = p.schema.tables.has name
  named : ∀ name t, p.schema.tables.get? name = some t → t.name = name
  apart : ∀ name, p.schema.tables.has name = true → p.schema.views.has name = false

/-- A reference of a table, by the identity of the table and the place of the reference, names
a table. -/
def Refers (p : Population ι) (i : ι) (k : Nat) (far : String) : Prop :=
  ∃ name t reference, p.schema.tables.get? name = some t ∧ p.owner name = some i ∧
    t.references[k]? = some reference ∧ reference.farTable = far

/-- No reference designates another table than the one it was declared against. -/
def OnTarget (target : ι → Nat → ι) (p : Population ι) : Prop :=
  ∀ i k far j, p.Refers i k far → p.owner far = some j → j = target i k

/-- A call that succeeds gives a name to a table while a reference to another one has that name,
or brings in a reference that has the name of a wrong table. -/
def Captures (target : ι → Nat → ι) (p : Population ι) (call : Call ι) : Prop :=
  (call.session.run p.schema).1 = .ok () ∧
    match call with
    | .addTable t i =>
        (∃ j k, p.Refers j k t.name ∧ i ≠ target j k) ∨
          ∃ k reference j, t.references[k]? = some reference ∧
            call.owner p.owner reference.farTable = some j ∧ j ≠ target i k
    | .renameTable old new => ∃ i j k, p.owner old = some i ∧ p.Refers j k new ∧ i ≠ target j k
    | .addView _ | .dropTable _ => False

/-! ## What the calls do -/

variable {p : Population ι} {schema : Schema} {target : ι → Nat → ι}

/-- A call that fails leaves the tables and views as they are. -/
theorem Call.failed (tidy : schema.Tidy) (call : Call ι) {cause : Fault}
    (failed : (call.session.run schema).1 = .error cause) :
    (call.session.run schema).2.tables = schema.tables ∧
      (call.session.run schema).2.views = schema.views := by
  cases call with
  | addTable t i =>
      rw [session, addTable_run] at failed ⊢
      split
      · exact ⟨rfl, rfl⟩
      · rename_i unused
        rw [if_neg unused] at failed
        cases failed
  | addView v =>
      rw [session, addView_run] at failed ⊢
      split
      · exact ⟨rfl, rfl⟩
      · rename_i unused
        rw [if_neg unused] at failed
        cases failed
  | renameTable old new => exact tidy.renameTable_failed (Prod.ext failed rfl)
  | dropTable name => exact tidy.dropTable_failed (Prod.ext failed rfl)

/-- A table is added under a name that nothing has. -/
theorem addTable_ok {t : Table} {i : ι}
    (ran : ((Call.addTable t i).session.run schema).1 = .ok ()) :
    schema.tables.get? t.name = none ∧ schema.views.has t.name = false ∧
      ((Call.addTable t i).session.run schema).2 =
        { schema with tables := schema.tables.put t.name t } := by
  rw [Call.session, addTable_run] at ran ⊢
  cases used : schema.tables.has t.name || schema.views.has t.name with
  | true =>
      rw [used] at ran
      cases ran
  | false =>
      rw [Bool.or_eq_false_iff] at used
      exact ⟨Keyed.get?_eq_none_of_has used.1, used.2, rfl⟩

theorem addView_ok {v : View} (ran : ((Call.addView v : Call ι).session.run schema).1 = .ok ()) :
    schema.tables.has v.name = false ∧
      ((Call.addView v : Call ι).session.run schema).2 =
        { schema with views := schema.views.put v.name v } := by
  rw [Call.session, addView_run] at ran ⊢
  cases used : schema.tables.has v.name || schema.views.has v.name with
  | true =>
      rw [used] at ran
      cases ran
  | false =>
      rw [Bool.or_eq_false_iff] at used
      exact ⟨used.1, rfl⟩

/-- A table passes from one name to another that nothing has, and its references and those to it
with it. -/
theorem renameTable_ok (tidy : schema.Tidy) {old new : String}
    (ran : ((Call.renameTable old new : Call ι).session.run schema).1 = .ok ()) :
    schema.tables.get? new = none ∧ schema.views.has new = false ∧
      ((Call.renameTable old new : Call ι).session.run schema).2.views = schema.views ∧
      ∃ t t', schema.tables.get? old = some t ∧ t'.name = new ∧ t'.references = t.references ∧
        ∀ name, ((Call.renameTable old new : Call ι).session.run schema).2.tables.get? name =
          (if name = new then some t' else if name = old then none
            else schema.tables.get? name).map (Table.retargeted · old new) := by
  change ((renameTable old new).run schema).1 = .ok () at ran
  change _ ∧ _ ∧ ((renameTable old new).run schema).2.views = schema.views ∧ ∃ t t', _ ∧ _ ∧ _ ∧
    ∀ name, ((renameTable old new).run schema).2.tables.get? name = _
  by_cases refused : (schema.tables.has new || schema.views.has new) = true ∨
      schema.tables.get? old = none
  · obtain ⟨cause, unchanged⟩ := renameTable_run_of_refused refused
    rw [unchanged] at ran
    cases ran
  · rw [not_or, Bool.not_eq_true, ← Ne, Option.ne_none_iff_exists'] at refused
    obtain ⟨unused, t, found⟩ := refused
    rw [renameTable_run unused found] at ran ⊢
    rw [Bool.or_eq_false_iff] at unused
    rcases renamed : (Alteration.rename new).run (t, schema.database) with ⟨_ | _, t', database⟩
    · rw [renamed] at ran
      cases ran
    · have rooted := tidy.rooted _ (Schema.mem_of_get? found)
      obtain ⟨plan, planned, rfl, -⟩ := (Table.Operation.rename new).run_eq_ok rooted renamed
      cases planned with
      | rename live =>
          refine ⟨Keyed.get?_eq_none_of_has unused.1, unused.2, rfl, t,
            t.renamed schema.database.workspace.dialect new, found, rfl, rfl, fun name => ?_⟩
          dsimp only [renamedTables]
          rw [Keyed.get?_map (Table.retargeted · old new)]
          congr 1
          split
          · rename_i same
            rw [same, Keyed.get?_put_self]
          · rename_i different
            rw [Keyed.get?_put_ne _ _ different]
            split
            · rename_i same
              rw [same, tidy.ordered.get?_erase_self]
            · rename_i other
              rw [Keyed.get?_erase_ne other]

/-- A table goes. -/
theorem dropTable_ok (tidy : schema.Tidy) {dropped : String}
    (ran : ((Call.dropTable dropped : Call ι).session.run schema).1 = .ok ()) :
    ((Call.dropTable dropped : Call ι).session.run schema).2.views = schema.views ∧
      ∀ name, ((Call.dropTable dropped : Call ι).session.run schema).2.tables.get? name =
        if name = dropped then none else schema.tables.get? name := by
  change ((dropTable dropped).run schema).1 = .ok () at ran
  change ((dropTable dropped).run schema).2.views = _ ∧
    ∀ name, ((dropTable dropped).run schema).2.tables.get? name = _
  rw [dropTable, ExceptT.run_bind_eq] at ran ⊢
  cases found : schema.tables.get? dropped with
  | none =>
      rw [alterTable_run_of_none found] at ran
      cases ran
  | some t =>
      rw [alterTable_run found] at ran ⊢
      generalize Alteration.drop.run (t, schema.database) = altered at ran ⊢
      rcases altered with ⟨_ | _, t', database⟩
      · cases ran
      · refine ⟨rfl, fun name => ?_⟩
        change Keyed.get? name (Keyed.erase dropped (schema.tables.put dropped t')) = _
        split
        · rename_i same
          rw [same, (tidy.ordered.put dropped t').get?_erase_self]
        · rename_i different
          rw [Keyed.get?_erase_ne different, Keyed.get?_put_ne _ _ different]

theorem after_of_ok {call : Call ι} (ran : (call.session.run p.schema).1 = .ok ()) :
    p.after call = ⟨(call.session.run p.schema).2, call.owner p.owner⟩ := by
  rw [after, ran]
  rfl

theorem after_of_error {call : Call ι} {cause : Fault}
    (failed : (call.session.run p.schema).1 = .error cause) :
    p.after call = ⟨(call.session.run p.schema).2, p.owner⟩ := by
  rw [after, failed]
  rfl

/-! ## Names -/

/-- Only the tables, their identities and the names of the views matter. -/
theorem Sound.of_eq {q : Population ι} (sound : p.Sound)
    (tables : q.schema.tables = p.schema.tables) (views : q.schema.views = p.schema.views)
    (owner : q.owner = p.owner) : q.Sound := by
  obtain ⟨⟨ordered, rooted⟩, owned, named, apart⟩ := sound
  refine ⟨⟨?_, ?_⟩, ?_, ?_, ?_⟩
  · rwa [tables]
  · rwa [tables]
  · rwa [tables, owner]
  · rwa [tables]
  · rwa [tables, views]

theorem Sound.addTable (sound : p.Sound) {t : Table} (i : ι) (rooted : t.Rooted)
    (ran : ((Call.addTable t i).session.run p.schema).1 = .ok ()) :
    (p.after (.addTable t i)).Sound := by
  obtain ⟨-, unseen, made⟩ := addTable_ok ran
  rw [after_of_ok ran, made]
  refine ⟨sound.tidy.put t.name rooted p.schema.database, fun name => ?_, fun name other => ?_,
    fun name => ?_⟩
  · rw [Keyed.has, Keyed.get?_put, Call.owner]
    dsimp only
    by_cases same : name = t.name
    · rw [if_pos same, if_pos same]
      rfl
    · rw [if_neg same, if_neg same]
      exact sound.owned name
  · rw [Keyed.get?_put]
    split
    · rename_i same
      rintro ⟨⟩
      exact same.symm
    · exact sound.named name other
  · rw [Keyed.has, Keyed.get?_put]
    split
    · rename_i same
      exact fun _ => same ▸ unseen
    · exact sound.apart name

theorem Sound.addView (sound : p.Sound) {v : View}
    (ran : ((Call.addView v : Call ι).session.run p.schema).1 = .ok ()) :
    (p.after (.addView v)).Sound := by
  obtain ⟨unused, made⟩ := addView_ok ran
  rw [after_of_ok ran, made]
  refine ⟨⟨sound.tidy.ordered, sound.tidy.rooted⟩, sound.owned, sound.named, fun name present => ?_⟩
  rw [Keyed.has, Keyed.get?_put]
  split
  · rename_i same
    rw [same, unused] at present
    cases present
  · exact sound.apart name present

theorem Sound.renameTable (sound : p.Sound) {old new : String}
    (ran : ((Call.renameTable old new : Call ι).session.run p.schema).1 = .ok ()) :
    (p.after (.renameTable old new)).Sound := by
  obtain ⟨-, unseen, views, t, t', found, named, -, tables⟩ := renameTable_ok sound.tidy ran
  have kept := keeps_renameTable old new p.schema sound.tidy
  rw [after_of_ok ran]
  refine ⟨kept, fun name => ?_, fun name other => ?_, fun name => ?_⟩
  · rw [Keyed.has, tables, Call.owner, Option.isSome_map]
    dsimp only
    by_cases renamed : name = new
    · rw [if_pos renamed, if_pos renamed, sound.owned, Keyed.has, found]
      rfl
    · rw [if_neg renamed, if_neg renamed]
      by_cases left : name = old
      · rw [if_pos left, if_pos left]
        rfl
      · rw [if_neg left, if_neg left]
        exact sound.owned name
  · rw [tables]
    intro present
    obtain ⟨before, known, rfl⟩ := Option.map_eq_some_iff.1 present
    change before.name = name
    split at known
    · rename_i same
      cases known
      exact named.trans same.symm
    · split at known
      · cases known
      · exact sound.named name before known
  · rw [views, Keyed.has, tables, Option.isSome_map]
    split
    · rename_i same
      exact fun _ => same ▸ unseen
    · split
      · intro present
        cases present
      · exact sound.apart name

theorem Sound.dropTable (sound : p.Sound) {dropped : String}
    (ran : ((Call.dropTable dropped : Call ι).session.run p.schema).1 = .ok ()) :
    (p.after (.dropTable dropped)).Sound := by
  obtain ⟨views, tables⟩ := dropTable_ok sound.tidy ran
  have kept := keeps_dropTable dropped p.schema sound.tidy
  rw [after_of_ok ran]
  refine ⟨kept, fun name => ?_, fun name other => ?_, fun name => ?_⟩
  · rw [Keyed.has, tables, Call.owner]
    dsimp only
    by_cases gone : name = dropped
    · rw [if_pos gone, if_pos gone]
      rfl
    · rw [if_neg gone, if_neg gone]
      exact sound.owned name
  · rw [tables]
    split
    · intro present
      cases present
    · exact sound.named name other
  · rw [views, Keyed.has, tables]
    split
    · intro present
      cases present
    · exact sound.apart name

/-- Tables stay under their names, whatever comes of a call. -/
theorem Sound.after (sound : p.Sound) (call : Call ι)
    (rooted : ∀ t i, call = .addTable t i → t.Rooted) : (p.after call).Sound := by
  cases ran : (call.session.run p.schema).1 with
  | error cause =>
      obtain ⟨tables, views⟩ := call.failed sound.tidy ran
      rw [after_of_error ran]
      exact sound.of_eq tables views rfl
  | ok _ =>
      cases call with
      | addTable t i => exact sound.addTable i (rooted t i rfl) ran
      | addView v => exact sound.addView ran
      | renameTable old new => exact sound.renameTable ran
      | dropTable dropped => exact sound.dropTable ran

/-! ## References -/

theorem refers_addTable {t : Table} {i : ι}
    (ran : ((Call.addTable t i).session.run p.schema).1 = .ok ()) {j : ι} {k : Nat} {far : String} :
    (p.after (.addTable t i)).Refers j k far ↔ p.Refers j k far ∨
      j = i ∧ ∃ reference, t.references[k]? = some reference ∧ reference.farTable = far := by
  obtain ⟨unused, -, made⟩ := addTable_ok ran
  rw [after_of_ok ran, made]
  constructor
  · rintro ⟨name, t', reference, found, owned, here, names⟩
    dsimp only [Call.owner] at found owned
    rw [Keyed.get?_put] at found
    by_cases same : name = t.name
    · rw [if_pos same] at found owned
      obtain rfl := Option.some.inj found
      exact .inr ⟨(Option.some.inj owned).symm, reference, here, names⟩
    · rw [if_neg same] at found owned
      exact .inl ⟨name, t', reference, found, owned, here, names⟩
  · rintro (⟨name, t', reference, found, owned, here, names⟩ | ⟨rfl, reference, here, names⟩)
    · have other : name ≠ t.name := by
        rintro rfl
        rw [unused] at found
        cases found
      refine ⟨name, t', reference, ?_, ?_, here, names⟩
      · rw [Keyed.get?_put, if_neg other, found]
      · exact (if_neg other).trans owned
    · refine ⟨t.name, t, reference, ?_, if_pos rfl, here, names⟩
      rw [Keyed.get?_put, if_pos rfl]

/-- References are turned with the table that they name. -/
theorem refers_renameTable (sound : p.Sound) {old new : String}
    (ran : ((Call.renameTable old new : Call ι).session.run p.schema).1 = .ok ()) {j : ι} {k : Nat}
    {far : String} :
    (p.after (.renameTable old new)).Refers j k far ↔
      ∃ before, p.Refers j k before ∧ far = if before = old then new else before := by
  obtain ⟨unused, -, -, t, t', found, -, references, tables⟩ := renameTable_ok sound.tidy ran
  have turned (t : Table) (k : Nat) (reference : Reference) :
      (t.retargeted old new).references[k]? = some reference ↔ ∃ before,
        t.references[k]? = some before ∧
          (if before.farTable = old then { before with farTable := new } else before) =
            reference := by
    rw [Table.retargeted, List.getElem?_map, Option.map_eq_some_iff]
  rw [after_of_ok ran]
  constructor
  · rintro ⟨name, made, reference, known, owned, here, rfl⟩
    dsimp only [Call.owner] at known owned
    rw [tables] at known
    obtain ⟨before, kept, rfl⟩ := Option.map_eq_some_iff.1 known
    obtain ⟨reference, there, rfl⟩ := (turned before k _).1 here
    refine ⟨reference.farTable, ?_, by split <;> rfl⟩
    by_cases renamed : name = new
    · rw [if_pos renamed] at kept owned
      obtain rfl := Option.some.inj kept
      rw [references] at there
      exact ⟨old, t, reference, found, owned, there, rfl⟩
    · rw [if_neg renamed] at kept owned
      by_cases left : name = old
      · rw [if_pos left] at owned
        cases owned
      · rw [if_neg left] at kept owned
        exact ⟨name, before, reference, kept, owned, there, rfl⟩
  · rintro ⟨_, ⟨name, before, reference, known, owned, here, rfl⟩, rfl⟩
    by_cases left : name = old
    · rw [left, found] at known
      obtain rfl := Option.some.inj known
      refine ⟨new, t'.retargeted old new, _, ?_, ?_, (turned t' k _).2 ⟨reference, ?_, rfl⟩, ?_⟩
      · rw [tables, if_pos rfl]
        rfl
      · exact (if_pos rfl).trans (left ▸ owned)
      · rwa [references]
      · split <;> rfl
    · have other : name ≠ new := by
        rintro rfl
        rw [unused] at known
        cases known
      have known' := (turned before k _).2 ⟨reference, here, rfl⟩
      refine ⟨name, before.retargeted old new, _, ?_, ?_, known', ?_⟩
      · rw [tables, if_neg other, if_neg left, known]
        rfl
      · exact ((if_neg other).trans (if_neg left)).trans owned
      · split <;> rfl

/-- The references that are left are in other tables than the one that goes. -/
theorem refers_dropTable (sound : p.Sound) {dropped : String}
    (ran : ((Call.dropTable dropped : Call ι).session.run p.schema).1 = .ok ()) {j : ι} {k : Nat}
    {far : String} (refers : (p.after (.dropTable dropped)).Refers j k far) :
    p.Refers j k far ∧ ∃ name t, name ≠ dropped ∧ p.schema.tables.get? name = some t ∧
      ∃ reference ∈ t.references, reference.farTable = far := by
  obtain ⟨-, tables⟩ := dropTable_ok sound.tidy ran
  rw [after_of_ok ran] at refers
  obtain ⟨name, t, reference, known, owned, here, names⟩ := refers
  dsimp only [Call.owner] at known owned
  rw [tables] at known
  by_cases gone : name = dropped
  · rw [if_pos gone] at known
    cases known
  · rw [if_neg gone] at known owned
    exact ⟨⟨name, t, reference, known, owned, here, names⟩, name, t, gone, known, reference,
      List.mem_of_getElem? here, names⟩

theorem refers_of_eq {q : Population ι} (tables : q.schema.tables = p.schema.tables)
    (owner : q.owner = p.owner) {j : ι} {k : Nat} {far : String} :
    q.Refers j k far ↔ p.Refers j k far := by
  unfold Refers
  rw [tables, owner]

/-- One call keeps the references on their targets unless it captures one of them. -/
theorem onTarget_addTable (onTarget : p.OnTarget target) {t : Table} {i : ι}
    (ran : ((Call.addTable t i).session.run p.schema).1 = .ok ()) :
    (p.after (.addTable t i)).OnTarget target ↔ ¬p.Captures target (.addTable t i) := by
  have owner : (p.after (.addTable t i)).owner = (Call.addTable t i).owner p.owner := by
    rw [after_of_ok ran]
  constructor
  · rintro kept ⟨-, ⟨j, k, refers, wrong⟩ | ⟨k, reference, j, here, owned, wrong⟩⟩
    · refine wrong (kept j k t.name i ((refers_addTable ran).2 (.inl refers)) ?_)
      rw [owner]
      exact if_pos rfl
    · refine wrong (kept i k reference.farTable j ((refers_addTable ran).2 (.inr ?_)) ?_)
      · exact ⟨rfl, reference, here, rfl⟩
      · rw [owner, owned]
  · intro free j k far x refers owned
    rw [owner] at owned
    by_contra wrong
    refine free ⟨ran, ?_⟩
    dsimp only
    rcases (refers_addTable ran).1 refers with before | ⟨rfl, reference, here, rfl⟩
    · dsimp only [Call.owner] at owned
      by_cases named : far = t.name
      · rw [if_pos named] at owned
        obtain rfl := Option.some.inj owned
        exact .inl ⟨j, k, named ▸ before, wrong⟩
      · rw [if_neg named] at owned
        exact absurd (onTarget j k far x before owned) wrong
    · exact .inr ⟨k, reference, x, here, owned, wrong⟩

theorem onTarget_renameTable (sound : p.Sound) (onTarget : p.OnTarget target) {old new : String}
    (ran : ((Call.renameTable old new : Call ι).session.run p.schema).1 = .ok ()) :
    (p.after (.renameTable old new)).OnTarget target ↔
      ¬p.Captures target (.renameTable old new) := by
  have owner : (p.after (.renameTable old new)).owner =
      (Call.renameTable old new : Call ι).owner p.owner := by rw [after_of_ok ran]
  obtain ⟨unused, -, -, t, -, found, -⟩ := renameTable_ok sound.tidy ran
  have apart : new ≠ old := by
    rintro rfl
    rw [unused] at found
    cases found
  constructor
  · rintro kept ⟨-, i, j, k, owned, refers, wrong⟩
    refine wrong (kept j k new i ((refers_renameTable sound ran).2 ⟨new, refers, ?_⟩) ?_)
    · rw [if_neg apart]
    · rw [owner]
      exact (if_pos rfl).trans owned
  · intro free j k far x refers owned
    rw [owner] at owned
    dsimp only [Call.owner] at owned
    obtain ⟨before, referred, rfl⟩ := (refers_renameTable sound ran).1 refers
    by_cases turned : before = old
    · rw [if_pos turned, if_pos rfl] at owned
      exact onTarget j k before x referred (turned ▸ owned)
    · rw [if_neg turned] at owned
      by_cases taken : before = new
      · rw [if_pos taken] at owned
        by_contra wrong
        exact free ⟨ran, x, j, k, owned, taken ▸ referred, wrong⟩
      · rw [if_neg taken, if_neg turned] at owned
        exact onTarget j k before x referred owned

theorem onTarget_dropTable (sound : p.Sound) (onTarget : p.OnTarget target) {dropped : String}
    (ran : ((Call.dropTable dropped : Call ι).session.run p.schema).1 = .ok ()) :
    (p.after (.dropTable dropped)).OnTarget target := by
  intro j k far x refers owned
  have owner : (p.after (.dropTable dropped)).owner =
      (Call.dropTable dropped : Call ι).owner p.owner := by rw [after_of_ok ran]
  rw [owner] at owned
  dsimp only [Call.owner] at owned
  split at owned
  · cases owned
  · exact onTarget j k far x (refers_dropTable sound ran refers).1 owned

theorem OnTarget.of_eq {q : Population ι} (onTarget : p.OnTarget target)
    (tables : q.schema.tables = p.schema.tables) (owner : q.owner = p.owner) :
    q.OnTarget target := by
  intro i k far j refers owned
  rw [owner] at owned
  exact onTarget i k far j ((refers_of_eq tables owner).1 refers) owned

theorem onTarget_after_iff (sound : p.Sound) (onTarget : p.OnTarget target) (call : Call ι) :
    (p.after call).OnTarget target ↔ ¬p.Captures target call := by
  cases ran : (call.session.run p.schema).1 with
  | error cause =>
      obtain ⟨tables, -⟩ := call.failed sound.tidy ran
      rw [after_of_error ran]
      refine iff_of_true (onTarget.of_eq tables rfl) fun captures => ?_
      have succeeded := captures.1
      rw [ran] at succeeded
      cases succeeded
  | ok _ =>
      cases call with
      | addTable t i => exact onTarget_addTable onTarget ran
      | addView v =>
          refine iff_of_true (onTarget.of_eq ?_ ?_) fun captures => captures.2
          · rw [after_of_ok ran, (addView_ok ran).2]
          · rw [after_of_ok ran]
            rfl
      | renameTable old new => exact onTarget_renameTable sound onTarget ran
      | dropTable dropped =>
          exact iff_of_true (onTarget_dropTable sound onTarget ran) fun captures => captures.2

/-! ## Runs -/

theorem run_append (p : Population ι) (calls more : List (Call ι)) :
    p.run (calls ++ more) = (p.run calls).run more :=
  List.foldl_append

theorem Sound.run (sound : p.Sound) {calls : List (Call ι)}
    (rooted : ∀ t i, Call.addTable t i ∈ calls → t.Rooted) : (p.run calls).Sound := by
  induction calls generalizing p with
  | nil => exact sound
  | cons call calls ih =>
      refine ih (sound.after call fun t i same => rooted t i (by simp [same])) fun t i member => ?_
      exact rooted t i (List.mem_cons_of_mem _ member)

/-- Tables stay under their names and apart from the views, whatever comes of the calls.  The
references stay on their targets, or name nothing, exactly as long as no call captures one: as
long as no table gets a name that is left in a reference to another one, and none is added
whose own references name wrong tables. -/
theorem references_keep_target_iff {ι : Type} (target : ι → Nat → ι) (p : Population ι)
    (sound : p.Sound) (onTarget : p.OnTarget target) (calls : List (Call ι))
    (reached : ∀ t i, Call.addTable t i ∈ calls → t.Reached) :
    (∀ front back, calls = front ++ back →
      (∀ entry ∈ (p.run front).schema.tables, entry.2.name = entry.1) ∧
        ∀ name, ¬((p.run front).schema.tables.has name = true ∧
          (p.run front).schema.views.has name = true)) ∧
    ((∀ front back, calls = front ++ back → (p.run front).OnTarget target) ↔
      ∀ front call back, calls = front ++ call :: back → ¬(p.run front).Captures target call) := by
  have sounds {front back : List (Call ι)} (split : calls = front ++ back) : (p.run front).Sound :=
    sound.run fun t i member => (reached t i (by simp [split, member])).rooted
  have next (front : List (Call ι)) (call : Call ι) :
      p.run (front ++ [call]) = (p.run front).after call := run_append p front [call]
  refine ⟨fun front back split => ?_, fun kept front call back split captures => ?_, fun free => ?_⟩
  · obtain ⟨tidy, -, named, apart⟩ := sounds split
    refine ⟨fun entry member => named entry.1 entry.2 (tidy.ordered.get?_of_mem member), ?_⟩
    rintro name ⟨table, view⟩
    rw [apart name table] at view
    cases view
  · have here := kept front (call :: back) split
    have later := kept (front ++ [call]) back (by simp [split])
    rw [next, onTarget_after_iff (sounds split) here] at later
    exact later captures
  · -- The induction is on the calls from the end: before the last one all references are on target.
    intro front
    induction front using List.reverseRecOn with
    | nil => exact fun _ _ => onTarget
    | append_singleton front call ih =>
        intro back split
        have split : calls = front ++ call :: back := by simpa using split
        rw [next, onTarget_after_iff (sounds split) (ih _ split)]
        exact free front call back split

/-! ## References that designate their tables -/

/-- Every reference designates the table that it was declared against. -/
def Anchored (target : ι → Nat → ι) (p : Population ι) : Prop :=
  ∀ i k far, p.Refers i k far → p.owner far = some (target i k)

/-- A table is added after those it refers to, and dropped only if no other table refers to it. -/
def Careful (target : ι → Nat → ι) (p : Population ι) : Call ι → Prop
  | .addTable t i => ∀ k reference, t.references[k]? = some reference →
      (Call.addTable t i).owner p.owner reference.farTable = some (target i k)
  | .dropTable dropped => ∀ name t, name ≠ dropped → p.schema.tables.get? name = some t →
      ∀ reference ∈ t.references, reference.farTable ≠ dropped
  | .addView _ | .renameTable _ _ => True

theorem Anchored.onTarget (anchored : p.Anchored target) : p.OnTarget target := by
  intro i k far j refers owned
  rw [anchored i k far refers] at owned
  exact (Option.some.inj owned).symm

theorem Sound.owner_eq_none (sound : p.Sound) {name : String}
    (unused : p.schema.tables.get? name = none) : p.owner name = none := by
  have unowned := sound.owned name
  rw [Keyed.has, unused] at unowned
  simpa using unowned

/-- References go on designating their tables as long as the calls are careful; renaming never is
careless. -/
theorem Anchored.after (sound : p.Sound) (anchored : p.Anchored target) {call : Call ι}
    (careful : p.Careful target call) : (p.after call).Anchored target := by
  cases ran : (call.session.run p.schema).1 with
  | error cause =>
      obtain ⟨tables, -⟩ := call.failed sound.tidy ran
      rw [after_of_error ran]
      intro i k far refers
      have referred : p.Refers i k far := (refers_of_eq (q := ⟨_, p.owner⟩) tables rfl).1 refers
      exact anchored i k far referred
  | ok _ =>
      intro j k far refers
      have owner : (p.after call).owner = call.owner p.owner := by rw [after_of_ok ran]
      rw [owner]
      cases call with
      | addTable t i =>
          obtain ⟨unused, -⟩ := addTable_ok ran
          rcases (refers_addTable ran).1 refers with before | ⟨rfl, reference, here, rfl⟩
          · have owned := anchored j k far before
            have other : far ≠ t.name := by
              rintro rfl
              rw [sound.owner_eq_none unused] at owned
              cases owned
            exact (if_neg other).trans owned
          · exact careful k reference here
      | addView v =>
          refine anchored j k far ((refers_of_eq ?_ ?_).1 refers)
          · rw [after_of_ok ran, (addView_ok ran).2]
          · rw [after_of_ok ran]
            rfl
      | renameTable old new =>
          obtain ⟨unused, -⟩ := renameTable_ok sound.tidy ran
          obtain ⟨before, referred, rfl⟩ := (refers_renameTable sound ran).1 refers
          have owned := anchored j k before referred
          have other : before ≠ new := by
            rintro rfl
            rw [sound.owner_eq_none unused] at owned
            cases owned
          dsimp only [Call.owner]
          by_cases turned : before = old
          · rw [if_pos turned, if_pos rfl, ← turned, owned]
          · rw [if_neg turned, if_neg other, if_neg turned, owned]
      | dropTable dropped =>
          obtain ⟨before, name, t, stays, known, reference, member, names⟩ :=
            refers_dropTable sound ran refers
          have other : far ≠ dropped := names ▸ careful name t stays known reference member
          exact (if_neg other).trans (anchored j k far before)

section Zoo

/-- A database that answers every statement. -/
def keeper : Database where
  workspace := { dialect := .postgres, functions := {} }

def zoos : Table :=
  (Table.new .postgres "zoos").afterAll [.define { key := "id", kind := .int, isKey := true }]

/-- A table that refers to the zoos. -/
def animals : Table :=
  (Table.new .postgres "animals").afterAll
    [.define { key := "zoo", kind := .int }, .reference "zoo" zoos "id"]

/-- The zoos are dropped, and others come in their place. -/
def succession : List (Call Nat) :=
  [.addTable zoos 0, .addTable animals 1, .dropTable "zoos", .addTable zoos 2]

/-- No table is known yet. -/
def wilderness : Population Nat where
  schema := { database := keeper }
  owner := fun _ => none

theorem wilderness_sound : wilderness.Sound where
  tidy := ⟨List.Pairwise.nil, by simp [wilderness]⟩
  owned := fun _ => rfl
  named := nofun
  apart := nofun

/-- The last call captures the reference of the animals, which designates the other zoos then. -/
theorem animals_are_captured :
    (∃ front call back, succession = front ++ call :: back ∧
      (wilderness.run front).Captures (fun _ _ => 0) call) ∧
      (wilderness.run succession).owner "zoos" = some 2 ∧
      (wilderness.run succession).Refers 1 0 "zoos" := by
  have owner : (wilderness.run succession).owner "zoos" = some 2 := by decide +kernel
  have refers : (wilderness.run succession).Refers 1 0 "zoos" :=
    ⟨"animals", animals, ⟨"zoo", "zoos", "id"⟩, rfl, by decide +kernel, by decide +kernel, rfl⟩
  refine ⟨?_, owner, refers⟩
  have reached (t : Table) (i : Nat) (member : .addTable t i ∈ succession) : t.Reached := by
    simp only [succession, List.mem_cons, Call.addTable.injEq, reduceCtorEq, List.not_mem_nil,
      or_false, false_or] at member
    rcases member with ⟨rfl, -⟩ | ⟨rfl, -⟩ | ⟨rfl, -⟩ <;>
      exact (Table.ReachedIn.afterAll (.new _) _).reached
  obtain ⟨-, kept⟩ := references_keep_target_iff (fun _ _ => 0) wilderness wilderness_sound
    (fun i k far j refers owned => nomatch owned) succession reached
  by_contra free
  have onTarget := kept.2
    (fun front call back split captures => free ⟨front, call, back, split, captures⟩)
    succession [] (List.append_nil _).symm
  exact absurd (onTarget 1 0 "zoos" 2 refers owner) (by decide)

end Zoo

end Population

end RowQuery
