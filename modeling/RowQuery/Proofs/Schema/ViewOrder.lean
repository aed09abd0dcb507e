import RowQuery.Dialect.Ansi
import RowQuery.Proofs.Schema.Creation

/-!
# The order in which views are created and dropped

All tables are created before any view, and dropped after all of them.  The views themselves are
created and dropped in the order of their names, whatever they select from.  So a view that
selects from other views is created after them if their names come first, and they are dropped
after it if their names come last.
-/

namespace RowQuery

/-- A view selects from the table or the view of a name. -/
def View.Reads (v : View) (name : String) : Prop :=
  ∃ (q : Query) (state : TableState) (made : View) (db db' : Database),
    (View.ofQuery v.name q).run db = (.ok made, db') ∧ v = made.withState state ∧
      ∃ t ∈ q.relation.tables, t.name = name

namespace Database

variable {α : Type} {intent : α → Intent} {db : Database}

/-- The statements that ran since an earlier state, behind the commit of the transaction that was
open. -/
def Runs (before after : Database) (statements : List String) : Prop :=
  ∃ commit, commit <+: before.openCommit.map Executed.sql ∧
    after.record = before.record ++ commit ++ statements

/-- Statements with what they are for. -/
def logOf (intent : α → Intent) (items : List α) : List (α × String) :=
  items.flatMap fun a => (intent a).texts.map (Prod.mk a)

theorem map_logOf (items : List α) :
    (logOf intent items).map Prod.snd = items.flatMap fun a => (intent a).texts := by
  simp [logOf, List.map_flatMap, Function.comp_def]

theorem logOf_append (items more : List α) :
    logOf intent (items ++ more) = logOf intent items ++ logOf intent more :=
  List.flatMap_append

theorem mem_logOf {items : List α} {a : α} {text : String} :
    (a, text) ∈ logOf intent items ↔ a ∈ items ∧ text ∈ (intent a).texts := by
  simp only [logOf, List.mem_flatMap, List.mem_map, Prod.mk.injEq]
  constructor
  · rintro ⟨b, member, other, known, rfl, rfl⟩
    exact ⟨member, known⟩
  · rintro ⟨member, known⟩
    exact ⟨a, member, text, known, rfl, rfl⟩

/-- Plans that are carried out one after the other run their statements, up to one that fails. -/
theorem carryEach_runs (intent : α → Intent) (items : List α) (db : Database) :
    ∃ log, log <+: logOf intent items ∧
      ((carryEach intent items db).1 = .ok () → log = logOf intent items) ∧
      db.Runs (carryEach intent items db).2.2 (log.map Prod.snd) := by
  cases ended : (carryEach intent items db).1 with
  | ok _ =>
      obtain ⟨-, served⟩ := carryEach_served_ok (Prod.ext ended rfl)
      refine ⟨logOf intent items, List.prefix_rfl, fun _ => rfl, ?_⟩
      rw [map_logOf]
      exact served.record
  | error cause =>
      obtain ⟨done, a, rest, told, taken, split, -, cut, served⟩ :=
        carryEach_served_error (Prod.ext ended rfl)
      refine ⟨logOf intent done ++ told.map (Prod.mk a), ?_, nofun, ?_⟩
      · rw [split, logOf_append]
        refine List.prefix_append_right_inj _ |>.2 ?_
        exact (cut.ran.map _).trans (List.prefix_append _ _)
      · have texts : (logOf intent done ++ told.map (Prod.mk a)).map Prod.snd =
            (done.flatMap fun a => (intent a).texts) ++ told := by
          simp [map_logOf, Function.comp_def]
        rw [texts]
        exact served.record

/-- The statements for `later` stand only behind all those for `earlier`. -/
def OnlyAfter (intent : α → Intent) (log : List (α × String)) (earlier later : α) : Prop :=
  ∀ front text back, log = front ++ (later, text) :: back →
    ∀ other ∈ (intent earlier).texts, (earlier, other) ∈ front

variable {items before behind : List α} {log : List (α × String)} {earlier later : α}

theorem onlyAfter_of_before (split : items = before ++ later :: behind) (fresh : later ∉ before)
    (member : earlier ∈ before) (part : log <+: logOf intent items) :
    OnlyAfter intent log earlier later := by
  rintro front text back rfl other known
  obtain ⟨more, whole⟩ := part
  rw [split, logOf_append, List.append_assoc] at whole
  rcases List.append_eq_append_iff.1 whole with ⟨rest, ran, tail⟩ | ⟨rest, ran, -⟩
  · cases rest with
    | nil =>
        rw [List.append_nil] at ran
        exact ran ▸ mem_logOf.2 ⟨member, known⟩
    | cons head rest =>
        obtain rfl : (later, text) = head := by simpa using (List.cons.inj tail).1
        have early : (later, text) ∈ logOf intent before := by simp [ran]
        exact absurd (mem_logOf.1 early).1 fresh
  · rw [ran]
    exact List.mem_append_left _ (mem_logOf.2 ⟨member, known⟩)

/-- What has statements of its own and is only handled later is not handled before. -/
theorem before_of_onlyAfter (split : items = before ++ later :: behind)
    (spoken : (intent later).texts ≠ []) (spokenEarlier : (intent earlier).texts ≠ [])
    (after : OnlyAfter intent (logOf intent items) earlier later) : earlier ∈ before := by
  obtain ⟨text, texts, first⟩ := List.exists_cons_of_ne_nil spoken
  obtain ⟨other, known⟩ := List.exists_mem_of_ne_nil _ spokenEarlier
  have whole : logOf intent items = logOf intent before ++
      (later, text) :: (texts.map (Prod.mk later) ++ logOf intent behind) := by
    rw [split, logOf_append]
    simp [logOf, first]
  exact (mem_logOf.1 (after _ _ _ whole other known)).1

theorem onlyAfter_of_silent (silent : (intent earlier).texts = [] ∨ (intent later).texts = [])
    (part : log <+: logOf intent items) : OnlyAfter intent log earlier later := by
  rintro front text back rfl other known
  rcases silent with none | none
  · rw [none] at known
    cases known
  · have member : (later, text) ∈ logOf intent items := part.subset (by simp)
    have spoken := (mem_logOf.1 member).2
    rw [none] at spoken
    cases spoken

end Database

namespace Schema

open Database

variable {schema : Schema} {d : Dialect}

/-- An entry between those with smaller and those with greater keys. -/
theorem exists_place {α : Type} {map : Keyed α} (ordered : map.Ordered) {entry : String × α}
    (member : entry ∈ map) :
    ∃ front rest, map = front ++ entry :: rest ∧ entry ∉ front ∧
      ∀ other ∈ map, other ∈ front ↔ other.1 < entry.1 := by
  obtain ⟨front, rest, rfl⟩ := List.append_of_mem member
  obtain ⟨-, behind, apart⟩ := List.pairwise_append.1 ordered
  have greater := (List.pairwise_cons.1 behind).1
  have smaller : ∀ other ∈ front, other.1 < entry.1 :=
    fun other known => apart other known entry List.mem_cons_self
  refine ⟨front, rest, rfl, fun known => lt_irrefl _ (smaller entry known), ?_⟩
  intro other known
  refine ⟨smaller other, fun below => ?_⟩
  rcases List.mem_append.1 known with first | second
  · exact first
  · rcases List.mem_cons.1 second with rfl | later
    · exact absurd below (lt_irrefl _)
    · exact absurd (greater other later) (not_lt_of_gt below)

theorem viewObject_injective : Function.Injective viewObject := by
  rintro ⟨name, v⟩ ⟨name', v'⟩ same
  cases same
  rfl

theorem tableObject_injective : Function.Injective tableObject := by
  rintro ⟨name, t⟩ ⟨name', t'⟩ same
  cases same
  rfl

theorem viewObject_not_mem (v : String × View) (tables : Keyed Table) :
    viewObject v ∉ tables.map tableObject := by
  intro member
  obtain ⟨entry, -, same⟩ := List.mem_map.1 member
  cases same

theorem tableObject_not_mem (t : String × Table) (views : Keyed View) :
    tableObject t ∉ views.map viewObject := by
  intro member
  obtain ⟨entry, -, same⟩ := List.mem_map.1 member
  cases same

/-- What stands in front of a view when everything is created. -/
theorem exists_creation_place (shelved : schema.Shelved) {v : String × View}
    (member : v ∈ schema.views) :
    ∃ before behind, schema.objects = before ++ viewObject v :: behind ∧
      viewObject v ∉ before ∧ (∀ t ∈ schema.tables, tableObject t ∈ before) ∧
      ∀ w ∈ schema.views, viewObject w ∈ before ↔ w.1 < v.1 := by
  obtain ⟨front, rest, views, fresh, place⟩ := exists_place shelved member
  refine ⟨schema.tables.map tableObject ++ front.map viewObject, rest.map viewObject, ?_, ?_, ?_,
    ?_⟩
  · rw [objects, views]
    simp
  · rw [List.mem_append, not_or, List.mem_map_of_injective viewObject_injective]
    exact ⟨viewObject_not_mem v _, fresh⟩
  · exact fun t known => List.mem_append_left _ (List.mem_map_of_mem known)
  · intro w known
    rw [List.mem_append, List.mem_map_of_injective viewObject_injective, ← place w known]
    exact or_iff_right (viewObject_not_mem w _)

/-- What stands in front of a view when everything is dropped. -/
theorem exists_view_deletion_place (shelved : schema.Shelved) {w : String × View}
    (member : w ∈ schema.views) :
    ∃ before behind, schema.droppings = before ++ viewObject w :: behind ∧
      viewObject w ∉ before ∧ ∀ v ∈ schema.views, viewObject v ∈ before ↔ v.1 < w.1 := by
  obtain ⟨front, rest, views, fresh, place⟩ := exists_place shelved member
  refine ⟨front.map viewObject, rest.map viewObject ++ schema.tables.map tableObject, ?_, ?_, ?_⟩
  · rw [droppings, views]
    simp
  · rwa [List.mem_map_of_injective viewObject_injective]
  · intro v known
    rw [List.mem_map_of_injective viewObject_injective, place v known]

/-- What stands in front of a table when everything is dropped. -/
theorem exists_table_deletion_place (ordered : schema.tables.Ordered) {t : String × Table}
    (member : t ∈ schema.tables) :
    ∃ before behind, schema.droppings = before ++ tableObject t :: behind ∧
      tableObject t ∉ before ∧ ∀ v ∈ schema.views, viewObject v ∈ before := by
  obtain ⟨front, rest, tables, fresh, -⟩ := exists_place ordered member
  refine ⟨schema.views.map viewObject ++ front.map tableObject, rest.map tableObject, ?_, ?_, ?_⟩
  · rw [droppings, tables]
    simp
  · rw [List.mem_append, not_or, List.mem_map_of_injective tableObject_injective]
    exact ⟨tableObject_not_mem t _, fresh⟩
  · exact fun v known => List.mem_append_left _ (List.mem_map_of_mem known)

/-! ## Views that select from views -/

/-- Of the views that are not in the database, each selects only from those with smaller names. -/
def ReadsAscending (schema : Schema) : Prop :=
  ∀ v ∈ schema.views, ∀ w ∈ schema.views, v.2.table.isCreated = false →
    w.2.table.isCreated = false → v.2.Reads w.2.name → w.1 < v.1

/-- Of the views in the database, each selects only from those with greater names. -/
def ReadsDescending (schema : Schema) : Prop :=
  ∀ v ∈ schema.views, ∀ w ∈ schema.views, v.2.table.isCreated = true →
    w.2.table.isCreated = true → v.2.Reads w.2.name → v.1 < w.1

/-- A view is created only after everything that it selects from. -/
def CreatesInOrder (d : Dialect) (schema : Schema) (log : List (Object × String)) : Prop :=
  ∀ v ∈ schema.views, ∀ object ∈ schema.objects, v.2.Reads object.name →
    OnlyAfter (Object.creation d) log object (viewObject v)

/-- A table or view is dropped only after every view that selects from it. -/
def DropsInOrder (d : Dialect) (schema : Schema) (log : List (Object × String)) : Prop :=
  ∀ v ∈ schema.views, ∀ object ∈ schema.objects, v.2.Reads object.name →
    OnlyAfter (Object.deletion d) log (viewObject v) object

theorem creation_silent {v : String × View} (created : v.2.table.isCreated = true) :
    ((viewObject v).creation d).texts = [] := by
  simp [viewObject, Object.creation, created, Intent.texts]

theorem deletion_silent {v : String × View} (absent : v.2.table.isCreated = false) :
    ((viewObject v).deletion d).texts = [] := by
  rw [viewObject, Object.deletion]
  cases v.2.table.ensureLive with
  | error cause => rfl
  | ok _ => simp [absent]; rfl

theorem creation_spoken {v : String × View} (absent : v.2.table.isCreated = false)
    (planned : ∃ statements, (viewObject v).creation d = .ok statements) :
    ((viewObject v).creation d).texts ≠ [] := by
  obtain ⟨statements, planned⟩ := planned
  rw [planned]
  rw [viewObject, Object.creation, absent] at planned
  obtain ⟨_, -, ended⟩ := Except.bind_eq_ok_iff.1 planned
  obtain rfl := Except.ok.inj ended
  exact List.cons_ne_nil _ _

theorem deletion_spoken {v : String × View} (created : v.2.table.isCreated = true)
    (planned : ∃ statements, (viewObject v).deletion d = .ok statements) :
    ((viewObject v).deletion d).texts ≠ [] := by
  obtain ⟨statements, planned⟩ := planned
  rw [planned]
  obtain ⟨_, -, ended⟩ := Except.bind_eq_ok_iff.1 planned
  rw [created] at ended
  obtain rfl := Except.ok.inj ended
  exact List.cons_ne_nil _ _

theorem mem_objects {object : Object} : object ∈ schema.objects ↔
    (∃ t ∈ schema.tables, tableObject t = object) ∨ ∃ v ∈ schema.views, viewObject v = object := by
  simp only [objects, List.mem_append, List.mem_map]

theorem viewObject_mem {v : String × View} (member : v ∈ schema.views) :
    viewObject v ∈ schema.objects :=
  mem_objects.2 (.inr ⟨v, member, rfl⟩)

/-- As long as it is created only after it, it does not matter what a view selects from. -/
theorem createsInOrder_of_ascending (shelved : schema.Shelved) (ascending : schema.ReadsAscending)
    {log : List (Object × String)} (part : log <+: logOf (Object.creation d) schema.objects) :
    schema.CreatesInOrder d log := by
  intro v member object handled reads
  obtain ⟨before, behind, split, fresh, tables, views⟩ := exists_creation_place shelved member
  rcases mem_objects.1 handled with ⟨t, known, rfl⟩ | ⟨w, known, rfl⟩
  · exact onlyAfter_of_before split fresh (tables t known) part
  · cases presentView : v.2.table.isCreated with
    | true => exact onlyAfter_of_silent (.inr (creation_silent presentView)) part
    | false =>
        cases present : w.2.table.isCreated with
        | true => exact onlyAfter_of_silent (.inl (creation_silent present)) part
        | false =>
            have below := ascending v member w known presentView present reads
            exact onlyAfter_of_before split fresh ((views w known).2 below) part

theorem ascending_of_createsInOrder (shelved : schema.Shelved)
    (planned : ∀ object ∈ schema.objects, ∃ statements, object.creation d = .ok statements)
    (inOrder : schema.CreatesInOrder d (logOf (Object.creation d) schema.objects)) :
    schema.ReadsAscending := by
  intro v member w known absent absent' reads
  obtain ⟨before, behind, split, -, -, views⟩ := exists_creation_place shelved member
  have spoken := creation_spoken absent (planned _ (viewObject_mem member))
  have spoken' := creation_spoken absent' (planned _ (viewObject_mem known))
  refine (views w known).1 (before_of_onlyAfter split spoken spoken' ?_)
  exact inOrder v member _ (viewObject_mem known) reads

theorem dropsInOrder_of_descending (ordered : schema.tables.Ordered) (shelved : schema.Shelved)
    (descending : schema.ReadsDescending) {log : List (Object × String)}
    (part : log <+: logOf (Object.deletion d) schema.droppings) : schema.DropsInOrder d log := by
  intro v member object handled reads
  rcases mem_objects.1 handled with ⟨t, known, rfl⟩ | ⟨w, known, rfl⟩
  · obtain ⟨before, behind, split, fresh, views⟩ := exists_table_deletion_place ordered known
    exact onlyAfter_of_before split fresh (views v member) part
  · obtain ⟨before, behind, split, fresh, views⟩ := exists_view_deletion_place shelved known
    cases presentView : v.2.table.isCreated with
    | false => exact onlyAfter_of_silent (.inl (deletion_silent presentView)) part
    | true =>
        cases present : w.2.table.isCreated with
        | false => exact onlyAfter_of_silent (.inr (deletion_silent present)) part
        | true =>
            have below := descending v member w known presentView present reads
            exact onlyAfter_of_before split fresh ((views v member).2 below) part

theorem descending_of_dropsInOrder (shelved : schema.Shelved)
    (planned : ∀ object ∈ schema.droppings, ∃ statements, object.deletion d = .ok statements)
    (inOrder : schema.DropsInOrder d (logOf (Object.deletion d) schema.droppings)) :
    schema.ReadsDescending := by
  intro v member w known created created' reads
  obtain ⟨before, behind, split, -, views⟩ := exists_view_deletion_place shelved known
  have dropped (v : String × View) (member : v ∈ schema.views) : viewObject v ∈ schema.droppings :=
    List.mem_append_left _ (List.mem_map_of_mem member)
  have spoken := deletion_spoken created (planned _ (dropped v member))
  have spoken' := deletion_spoken created' (planned _ (dropped w known))
  refine (views v member).1 (before_of_onlyAfter split spoken' spoken ?_)
  exact inOrder v member _ (viewObject_mem known) reads

/-- Creating everything creates views after what they select from, up to where it fails, if the
names of the views they select from come first, and only then if it succeeds; dropping everything
drops views before what they select from if those names come last.  Tables are always created
before and dropped after the views that select from them. -/
theorem view_order_iff (d : Dialect) (schema : Schema) (reached : schema.Reached)
    (same : schema.database.workspace.dialect = d) :
    (∃ log, log <+: logOf (Object.creation d) schema.objects ∧
      schema.database.Runs (createAll.run schema).2.database (log.map Prod.snd) ∧
      (schema.ReadsAscending → schema.CreatesInOrder d log) ∧
      ((createAll.run schema).1 = .ok () → log = logOf (Object.creation d) schema.objects ∧
        (schema.CreatesInOrder d log ↔ schema.ReadsAscending))) ∧
    ∃ log, log <+: logOf (Object.deletion d) schema.droppings ∧
      schema.database.Runs (dropAll.run schema).2.database (log.map Prod.snd) ∧
      (schema.ReadsDescending → schema.DropsInOrder d log) ∧
      ((dropAll.run schema).1 = .ok () → log = logOf (Object.deletion d) schema.droppings ∧
        (schema.DropsInOrder d log ↔ schema.ReadsDescending)) := by
  obtain ⟨tidy, shelved⟩ : schema.Tidy ∧ schema.Shelved := ⟨reached.tidy, reached.shelved⟩
  constructor
  · obtain ⟨-, -, outcome, database, -⟩ := createAll_run tidy.ordered shelved tidy.rooted same
    obtain ⟨log, part, whole, runs⟩ :=
      carryEach_runs (Object.creation d) schema.objects schema.database
    rw [outcome, database]
    refine ⟨log, part, runs, fun ascending => createsInOrder_of_ascending shelved ascending part,
      fun succeeded => ?_⟩
    obtain rfl := whole succeeded
    refine ⟨rfl, ascending_of_createsInOrder shelved (carryEach_planned succeeded), ?_⟩
    exact fun ascending => createsInOrder_of_ascending shelved ascending part
  · obtain ⟨outcome, database⟩ := dropAll_run tidy.rooted same
    obtain ⟨log, part, whole, runs⟩ :=
      carryEach_runs (Object.deletion d) schema.droppings schema.database
    rw [outcome, database]
    refine ⟨log, part, runs,
      fun descending => dropsInOrder_of_descending tidy.ordered shelved descending part,
      fun succeeded => ?_⟩
    obtain rfl := whole succeeded
    refine ⟨rfl, descending_of_dropsInOrder shelved (carryEach_planned succeeded), ?_⟩
    exact fun descending => dropsInOrder_of_descending tidy.ordered shelved descending part

section Exhibition

/-- A database that answers every statement. -/
def gallery : Database where
  workspace := { dialect := .ansi, functions := {} }

/-- The view of a query on it. -/
def viewOf (name : String) (q : Query) : View :=
  match ((View.ofQuery name q).run gallery).1 with
  | .ok v => v
  | .error _ => { table := .new .ansi name, selectSql := "" }

theorem reads_viewOf {name : String} {q : Query} {t : Table}
    (made : ((View.ofQuery name q).run gallery).1.isOk = true)
    (named : (viewOf name q).name = name) (member : t ∈ q.relation.tables) :
    (viewOf name q).Reads t.name := by
  refine ⟨q, (viewOf name q).table.state, viewOf name q, gallery,
    ((View.ofQuery name q).run gallery).2, ?_, rfl, t, member, rfl⟩
  rw [named]
  refine Prod.ext ?_ rfl
  rw [viewOf]
  cases ended : ((View.ofQuery name q).run gallery).1 with
  | ok v => rfl
  | error cause =>
      rw [ended] at made
      cases made

def paintings : Table :=
  ((Table.Operation.define { key := "title", kind := .text }).alteration.run
    (.new .ansi "painting", gallery)).2.1

/-- A view of the table. -/
def titles : View :=
  viewOf "title" { relation := .table paintings }

/-- A view of the view, whose name comes first. -/
def listing : View :=
  viewOf "listing" { relation := .table titles.table }

def exhibition : Schema :=
  let filled := (addTable paintings).run { database := gallery }
  ((addView listing).run ((addView titles).run filled.2).2).2

theorem exhibition_views : exhibition.views = [("listing", listing), ("title", titles)] := by
  rfl

theorem exhibition_reached : exhibition.Reached := by
  have paintings_reached : paintings.Reached := .operate (.new .ansi "painting") _ gallery
  have filled : Reached ((addTable paintings).run { database := gallery }).2 :=
    .operate (.new gallery) (.addTable paintings) fun _ same => same ▸ paintings_reached
  exact .operate (.operate filled (.addView titles) nofun) (.addView listing) nofun

theorem listing_reads : listing.Reads "title" :=
  reads_viewOf (t := titles.table) (by decide +kernel) (by decide +kernel)
    (List.mem_singleton.2 rfl)

/-- The view is created before the one that it selects from. -/
theorem exhibition_out_of_order :
    exhibition.database.Runs (createAll.run exhibition).2.database
        ["CREATE TABLE \"painting\" (\"title\" VARCHAR(255))",
          "CREATE VIEW \"listing\" AS SELECT \"title\" FROM \"title\"",
          "CREATE VIEW \"title\" AS SELECT \"title\" FROM \"painting\""] ∧
      ¬exhibition.CreatesInOrder .ansi
        (logOf (Object.creation .ansi) exhibition.objects) := by
  obtain ⟨⟨log, -, runs, -, whole⟩, -⟩ :=
    view_order_iff .ansi exhibition exhibition_reached rfl
  have succeeded : (createAll.run exhibition).1 = .ok () := by decide +kernel
  obtain ⟨rfl, ascending⟩ := whole succeeded
  refine ⟨?_, fun inOrder => ?_⟩
  · have texts : (logOf (Object.creation .ansi) exhibition.objects).map Prod.snd =
        ["CREATE TABLE \"painting\" (\"title\" VARCHAR(255))",
          "CREATE VIEW \"listing\" AS SELECT \"title\" FROM \"title\"",
          "CREATE VIEW \"title\" AS SELECT \"title\" FROM \"painting\""] := by decide +kernel
    rwa [texts] at runs
  · have listed : ("listing", listing) ∈ exhibition.views := by simp [exhibition_views]
    have known : ("title", titles) ∈ exhibition.views := by simp [exhibition_views]
    have below := ascending.1 inOrder _ listed _ known (by decide +kernel) (by decide +kernel)
      listing_reads
    exact absurd below (by decide +kernel)

end Exhibition

end Schema

end RowQuery
