import RowQuery.Proofs.Memo.Transparency
import RowQuery.Proofs.Reach.Term
import RowQuery.Query.Select
import RowQuery.Query.Write

/-!
# What conditions reach

Restrictions are compiled without aggregates, and a memo changes nothing about that: it answers
with restrictions for tables of the same labels.  The same holds of the conditions of joins, also
of those that follow references.
-/

namespace RowQuery

open RowQuery.Sql BuiltinDialect RestrictionRequest

/-- What statements are written in is a built-in dialect, with functions that keep their reach. -/
structure Workspace.Regular (w : Workspace) (d : BuiltinDialect) : Prop where
  dialect : w.dialect = d.dialect
  functions : w.functions.KeepsReach

/-- What a built-in dialect and the standard functions write statements in. -/
def BuiltinDialect.workspace (d : BuiltinDialect) : Workspace :=
  ⟨d.dialect, .standard⟩

theorem BuiltinDialect.regular_workspace (d : BuiltinDialect) : d.workspace.Regular d :=
  ⟨rfl, FunctionLibrary.keepsReach_standard⟩

/-- The columns of some tables are quoted in the way of a dialect. -/
def BuiltinDialect.Quotes (d : BuiltinDialect) (bindings : List Binding) : Prop :=
  ∀ b ∈ bindings, ∀ column ∈ b.table.columns,
    column.quotedName = d.dialect.quoteName column.name

variable {d : BuiltinDialect} {w : Workspace} {bindings near far : List Binding}
variable {arguments : Arguments}

theorem Workspace.Regular.context (regular : w.Regular d) (quotes : d.Quotes bindings)
    (arguments : Arguments) : (w.context bindings arguments).Regular d := by
  refine ⟨regular.dialect, regular.functions, fun b member column present => ?_⟩
  exact (quotes b member column present).trans
    (congrArg (·.quoteName column.name) regular.dialect.symm)

namespace CompileContext

variable {c : CompileContext}

theorem reaches_restrict (regular : c.Regular d) {e : Lambda} {rendering : Rendering}
    (restricted : c.restrict e = .ok rendering) : rendering.fragment.Reaches d c.reach := by
  obtain ⟨_, -, rest⟩ := Except.bind_eq_ok_iff.1 restricted
  split at rest
  · rename_i piece compiled
    obtain ⟨base, baseEq, condition⟩ := Except.bind_eq_ok_iff.1 compiled
    obtain rfl := Except.ok.inj rest
    exact obeys_asCondition regular (Term.compile_reaches regular baseEq) condition
  · cases rest
  · split at rest
    · rename_i piece always
      obtain rfl := Except.ok.inj rest
      exact obeys_truth regular always
    · cases rest

end CompileContext

namespace BuiltinDialect

/-- The tables of a request are quoted in the way of the dialect. -/
def Asks (d : BuiltinDialect) (r : RestrictionRequest) : Prop :=
  d.Quotes r.bindings

variable (regular : w.Regular d)

include regular

theorem inReach_afresh {r : RestrictionRequest} (asks : d.Asks r) {found : Restriction}
    (compiled : r.afresh w = .ok found) :
    d.InReach (.ofBindings r.bindings) false found.sql := by
  obtain ⟨rendering, restricted, rest⟩ := Except.bind_eq_ok_iff.1 compiled
  have reaches := CompileContext.reaches_restrict (regular.context asks _) restricted
  split at rest
  · cases rest
  · rename_i plain
    obtain rfl := Except.ok.inj rest
    exact reaches.inReach (Bool.eq_false_iff.2 plain)

omit regular in
/-- Requests of the same key are for tables of the same labels. -/
theorem ofBindings_of_key {r s : RestrictionRequest} (sameKey : s.key w = r.key w) :
    Reach.ofBindings s.bindings = .ofBindings r.bindings := by
  have tables : s.bindings.map (fun b => (b.label, b.table.name)) =
      r.bindings.map fun b => (b.label, b.table.name) :=
    congrArg MemoKey.tables sameKey
  have labels := congrArg (List.map Prod.fst) tables
  rw [List.map_map, List.map_map] at labels
  have same : s.bindings.map Binding.label = r.bindings.map Binding.label := labels
  have length := congrArg List.length same
  rw [List.length_map, List.length_map] at length
  rw [Reach.ofBindings, Reach.ofBindings, same, length]

/-- A restriction is an expression over its tables, and no aggregate. -/
theorem ensures_restriction (quotes : d.Quotes bindings) (e : Lambda) (arguments : Arguments) :
    Memoized.Ensures w d.Asks (w.restriction bindings e arguments)
      fun found => d.InReach (.ofBindings bindings) false found.sql := by
  have asks : d.Asks ⟨bindings, e, arguments⟩ := quotes
  refine (Memoized.ensures_restriction asks).imp ?_
  rintro found ⟨s, sAsks, sameKey, compiled⟩
  exact ofBindings_of_key sameKey ▸ inReach_afresh regular sAsks compiled

/-! ## Conditions of joins -/

theorem inReach_referenceTerm {reach : Reach}
    (qualified : reach.qualified = true) {l r : Binding} (quotes : d.Quotes [l, r])
    (left : l.label ∈ reach.labels) (right : r.label ∈ reach.labels) {reference : Reference}
    {sql : String} (written : w.referenceTerm l r reference = some sql) :
    d.InReach reach false sql := by
  obtain ⟨n, nFound, rest⟩ := Option.bind_eq_some_iff.1 written
  obtain ⟨f, fFound, ended⟩ := Option.bind_eq_some_iff.1 rest
  obtain rfl := Option.some.inj ended
  have side {b : Binding} {column : Column} (among : b ∈ [l, r]) (label : b.label ∈ reach.labels)
      (found : column ∈ b.table.columns) :
      d.InReach reach false (w.qualifiedText b column) := by
    rw [Workspace.qualifiedText, quotes b among column found, regular.dialect]
    refine ⟨_, lexemes?_qualified _ _, ?_, rfl⟩
    simp [Reach.Allows, Reach.Column, qualified, label]
  rw [regular.dialect]
  exact holds_compare (side (by simp) left (Table.mem_of_column? nFound)).holds .eq
    (side (by simp) right (Table.mem_of_column? fFound)).holds

theorem inReach_referencePath {reach : Reach}
    (qualified : reach.qualified = true) {l r : Binding} (quotes : d.Quotes [l, r])
    (left : l.label ∈ reach.labels) (right : r.label ∈ reach.labels) {sql : String}
    (written : w.referencePath l r = some sql) : d.InReach reach false sql := by
  have each : ∀ text ∈ (l.table.referencesTo r.table.name).filterMap (w.referenceTerm l r),
      d.InReach reach false text := by
    intro text member
    obtain ⟨reference, -, found⟩ := List.mem_filterMap.1 member
    exact inReach_referenceTerm regular qualified quotes left right found
  unfold Workspace.referencePath at written
  split at written
  · cases written
  · rename_i term single
    obtain rfl := Option.some.inj written
    exact each term (by rw [single]; simp)
  · obtain rfl := Option.some.inj written
    exact Law.Holds.bracketed (Law.Holds.join (separated_of_head rfl rfl) (by decide)
      (by cases d <;> rfl) fun text member => (each text member).holds)

/-- The references between a table of each side, from whichever of them refers to the other. -/
theorem inReach_pathBetween (quotes : d.Quotes (near ++ far)) {l r : Binding} (inNear : l ∈ near)
    (inFar : r ∈ far) {sql : String} (found : w.pathBetween l r = some sql) :
    d.InReach (.ofBindings (near ++ far)) false sql := by
  have lMember : l ∈ near ++ far := List.mem_append_left far inNear
  have rMember : r ∈ near ++ far := List.mem_append_right near inFar
  have qualified : (Reach.ofBindings (near ++ far)).qualified = true := by
    have nearPositive := List.length_pos_of_mem inNear
    have farPositive := List.length_pos_of_mem inFar
    rw [Reach.ofBindings, decide_eq_true_eq, List.length_append]
    omega
  have left : l.label ∈ (Reach.ofBindings (near ++ far)).labels := List.mem_map_of_mem lMember
  have right : r.label ∈ (Reach.ofBindings (near ++ far)).labels := List.mem_map_of_mem rMember
  have quotesPair : d.Quotes [l, r] := by
    intro b member
    simp only [List.mem_cons, List.not_mem_nil, or_false] at member
    rcases member with rfl | rfl
    · exact quotes b lMember
    · exact quotes b rMember
  have quotesBack : d.Quotes [r, l] := fun b member => quotesPair b (by
    simpa [or_comm] using member)
  rcases (Option.orElse_eq_some _ _ _).1 found with forth | ⟨-, back⟩
  · exact inReach_referencePath regular qualified quotesPair left right forth
  · exact inReach_referencePath regular qualified quotesBack right left back

/-- The condition of a join is an expression over its tables, and no aggregate. -/
theorem ensures_joinCondition (quotes : d.Quotes (near ++ far)) (path : Option Lambda) :
    Memoized.Ensures w d.Asks (w.joinCondition arguments path near far)
      fun sql => d.InReach (.ofBindings (near ++ far)) false sql := by
  unfold Workspace.joinCondition
  cases path with
  | some e =>
      refine (ensures_restriction regular quotes e arguments).bind fun found inReach => ?_
      split
      · exact Memoized.ensures_pure inReach
      · exact Memoized.ensures_throw _
  | none =>
      dsimp only
      split
      · rename_i condition found
        obtain ⟨l, inNear, found⟩ := List.exists_of_findSome?_eq_some found
        obtain ⟨r, inFar, found⟩ := List.exists_of_findSome?_eq_some found
        exact Memoized.ensures_pure (inReach_pathBetween regular quotes inNear inFar found)
      · exact Memoized.ensures_throw _

end BuiltinDialect

end RowQuery
