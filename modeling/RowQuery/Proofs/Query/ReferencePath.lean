import RowQuery.Proofs.Integral.Operand
import RowQuery.Proofs.Query.FromClause

/-!
# Joins along references

A join without a path of its own is over the references between its two sides: over those of the
first table that refers to one on the other side.  A reference knows the column that it leads to by
its key, and nothing tells it when that column is dropped.  Such a reference is passed over, so that
a join loses the condition on it, or looks for another table, or fails.
-/

namespace RowQuery

open RowQuery.Sql BuiltinDialect

/-- A table that may refer to another one, under the labels that both have in a join. -/
structure Link where
  near : Binding
  far : Binding

namespace Link

/-- The references from the one table to the other. -/
def references (link : Link) : List Reference :=
  link.near.table.referencesTo link.far.table.name

/-- The column that a reference leads to is there. -/
def reaches (link : Link) (r : Reference) : Bool :=
  (link.far.table.column? r.far).isSome

/-- All links between two sides in the order in which they are looked at: each table of the near
side with each one of the far side, and first as the table that refers. -/
def between (near far : List Binding) : List Link :=
  near.flatMap fun l => far.flatMap fun r => [⟨l, r⟩, ⟨r, l⟩]

/-- The first link over which there is a reference. -/
def first? (near far : List Binding) : Option Link :=
  (between near far).find? fun link => !link.references.isEmpty

/-- The first link over which there is a reference to a column that is there. -/
def firstReaching? (near far : List Binding) : Option Link :=
  (between near far).find? fun link => link.references.any link.reaches

/-- The two columns of a reference are equal. -/
inductive Equates (link : Link) : Reference → Expression → Prop
  | columns {r : Reference} {n f : Column} (near : link.near.table.column? r.near = some n)
      (far : link.far.table.column? r.far = some f) :
      Equates link r
        (.compare (.column [link.near.label, n.name]) .eq (.column [link.far.label, f.name]))

/-- A text is the conjunction of the equations of some references. -/
def Conjoins (link : Link) (d : BuiltinDialect) (references : List Reference) (sql : String) :
    Prop :=
  ∃ first rest, List.Forall₂ link.Equates references (first :: rest) ∧
    Reads d.mark Operator.comparisonPower sql (rest.foldl .and first)

variable {w : Workspace} {d : BuiltinDialect} {link : Link} {near far : List Binding}

theorem mem_between : link ∈ between near far ↔
    link.near ∈ near ∧ link.far ∈ far ∨ link.far ∈ near ∧ link.near ∈ far := by
  obtain ⟨l, r⟩ := link
  simp only [between, List.mem_flatMap, List.mem_cons, List.not_mem_nil, or_false, mk.injEq]
  constructor
  · rintro ⟨a, aNear, b, bFar, ⟨rfl, rfl⟩ | ⟨rfl, rfl⟩⟩
    · exact .inl ⟨aNear, bFar⟩
    · exact .inr ⟨aNear, bFar⟩
  · rintro (⟨lNear, rFar⟩ | ⟨rNear, lFar⟩)
    · exact ⟨l, lNear, r, rFar, .inl ⟨rfl, rfl⟩⟩
    · exact ⟨r, rNear, l, lFar, .inr ⟨rfl, rfl⟩⟩

/-! ## One link -/

/-- The columns that a table refers from are there. -/
theorem exists_near {dialect : Dialect} (wellFormed : link.near.table.WellFormed dialect)
    {r : Reference} (member : r ∈ link.references) :
    ∃ n, link.near.table.column? r.near = some n := by
  have declared := wellFormed.references r (List.mem_of_mem_filter member)
  obtain ⟨column, among, key⟩ := List.mem_map.1 declared
  refine Option.isSome_iff_exists.1 (List.find?_isSome.2 ⟨column, among, ?_⟩)
  simpa using key

/-- A reference is written down where the column that it leads to is there. -/
theorem referenceTerm_eq_none (r : Reference) (lost : link.reaches r = false) :
    w.referenceTerm link.near link.far r = none := by
  have gone : link.far.table.column? r.far = none := by
    simpa [reaches] using lost
  unfold Workspace.referenceTerm
  cases link.near.table.column? r.near with
  | none => rfl
  | some n => exact congrArg (· >>= _) gone

variable (builtIn : w.dialect = d.dialect) (nearFormed : link.near.table.WellFormed d.dialect)
  (farFormed : link.far.table.WellFormed d.dialect)

include builtIn nearFormed farFormed

theorem exists_referenceTerm {r : Reference} (member : r ∈ link.references)
    (there : link.reaches r = true) :
    ∃ sql e, w.referenceTerm link.near link.far r = some sql ∧ link.Equates r e ∧
      Reads d.mark Operator.comparisonPower sql e := by
  have usual := d.usual
  obtain ⟨n, nFound⟩ := exists_near nearFormed member
  obtain ⟨f, fFound⟩ := Option.isSome_iff_exists.1 there
  have side {b : Binding} {column : Column} (formed : b.table.WellFormed d.dialect)
      (found : column ∈ b.table.columns) (power : Nat) :
      Reads d.mark power (w.qualifiedText b column) (.column [b.label, column.name]) := by
    rw [Workspace.qualifiedText, formed.quoted column found, builtIn, usual.quoteName]
    exact .qualified usual.isMark b.label column.name
  have written : w.referenceTerm link.near link.far r =
      some (w.dialect.compare (w.qualifiedText link.near n) .eq (w.qualifiedText link.far f)) := by
    rw [Workspace.referenceTerm, nFound, fFound]
    rfl
  refine ⟨_, _, written, .columns nFound fFound, ?_⟩
  rw [builtIn, usual.compare]
  exact .operation usual.isMark (.compare .eq) (side nearFormed (Table.mem_of_column? nFound) _)
    (side farFormed (Table.mem_of_column? fFound) _)

/-- The references to columns that are there are written down, each as an equation. -/
theorem forall₂_referenceTerm {references : List Reference}
    (among : ∀ r ∈ references, r ∈ link.references) :
    ∃ es, List.Forall₂ link.Equates (references.filter link.reaches) es ∧
      List.Forall₂ (Reads d.mark Operator.comparisonPower)
        (references.filterMap (w.referenceTerm link.near link.far)) es := by
  induction references with
  | nil => exact ⟨[], .nil, .nil⟩
  | cons r rest ih =>
      rw [List.forall_mem_cons] at among
      obtain ⟨es, equations, reads⟩ := ih among.2
      by_cases there : link.reaches r = true
      · obtain ⟨sql, e, written, equation, read⟩ :=
          exists_referenceTerm builtIn nearFormed farFormed among.1 there
        refine ⟨e :: es, ?_, ?_⟩
        · rw [List.filter_cons_of_pos there]
          exact .cons equation equations
        · rw [List.filterMap_cons_some written]
          exact .cons read reads
      · refine ⟨es, ?_, ?_⟩
        · rwa [List.filter_cons_of_neg there]
        · rwa [List.filterMap_cons_none (referenceTerm_eq_none r (Bool.eq_false_iff.2 there))]

/-- What is written for a link: the conjunction of the references to columns that are there. -/
theorem referencePath_spec :
    if link.references.any link.reaches then
      ∃ sql, w.referencePath link.near link.far = some sql ∧
        link.Conjoins d (link.references.filter link.reaches) sql
    else w.referencePath link.near link.far = none := by
  obtain ⟨es, equations, reads⟩ := forall₂_referenceTerm builtIn nearFormed farFormed
    fun r (member : r ∈ link.references) => member
  have isMark := d.usual.isMark
  unfold Workspace.referencePath
  change List.Forall₂ _ ((link.near.table.referencesTo link.far.table.name).filterMap _) es at reads
  generalize (link.near.table.referencesTo link.far.table.name).filterMap _ = terms at reads
  split
  · rename_i some_
    cases reads with
    | nil =>
        have none := List.filter_eq_nil_iff.1 (List.forall₂_nil_right_iff.1 equations)
        obtain ⟨r, member, there⟩ := List.any_eq_true.1 some_
        exact absurd there (none r member)
    | @cons text e texts es read reads =>
        cases reads with
        | nil => exact ⟨_, rfl, _, _, equations, read⟩
        | cons read' reads =>
            refine ⟨_, rfl, _, _, equations, ?_⟩
            have weaker : Operator.and.power + 1 ≤ Operator.comparisonPower := by decide
            have others := (List.Forall₂.cons read' reads).imp fun _ _ read => read.mono weaker
            have chain := Reads.chain isMark .and others (read.mono (by decide))
            exact chain.bracketed isMark (by decide) _
  · rename_i none
    have empty : link.references.filter link.reaches = [] :=
      List.filter_eq_nil_iff.2 fun r member there => none (List.any_eq_true.2 ⟨r, member, there⟩)
    rw [empty, List.forall₂_nil_left_iff] at equations
    rw [equations, List.forall₂_nil_right_iff] at reads
    rw [reads]

end Link

/-! ## All links -/

theorem findSome?_flatMap {α β γ : Type} (items : List α) (parts : α → List β)
    (f : β → Option γ) :
    (items.flatMap parts).findSome? f = items.findSome? fun item => (parts item).findSome? f := by
  simp only [← List.head?_filterMap, List.filterMap_flatMap, List.head?_flatMap]

/-- How a join ends that is to be over some references of a link: with the conjunction of these
references between its sides, or with a fault if there is no link. -/
def EndsOver (d : BuiltinDialect) (text : String → String) (fault : Fault)
    (chosen : Link → List Reference) : Option Link → Outcome String → Prop
  | none, outcome => outcome = .error fault
  | some link, outcome => ∃ sql, outcome = .ok (text sql) ∧ link.Conjoins d (chosen link) sql

namespace Workspace

open Link

variable {w : Workspace} {d : BuiltinDialect} {near far : List Binding} {links : List Link}

/-- The links are looked at in their order. -/
theorem findSome?_pathBetween (w : Workspace) (near far : List Binding) :
    near.findSome? (fun l => far.findSome? (w.pathBetween l)) =
      (between near far).findSome? fun link => w.referencePath link.near link.far := by
  have both (l r : Binding) : w.pathBetween l r =
      [Link.mk l r, ⟨r, l⟩].findSome? fun link => w.referencePath link.near link.far := by
    unfold pathBetween
    simp only [List.findSome?_cons, List.findSome?_nil]
    cases w.referencePath l r <;> cases w.referencePath r l <;> rfl
  rw [between, findSome?_flatMap]
  simp only [findSome?_flatMap, ← both]

/-- The first link with a reference to a column that is there gives the condition. -/
theorem endsOver_findSome? (builtIn : w.dialect = d.dialect)
    (formed : ∀ link ∈ links, link.near.table.WellFormed d.dialect ∧
      link.far.table.WellFormed d.dialect) (text : String → String) (fault : Fault) :
    EndsOver d text fault (fun link => link.references.filter link.reaches)
      (links.find? fun link => link.references.any link.reaches)
      (match links.findSome? fun link => w.referencePath link.near link.far with
      | none => .error fault
      | some sql => .ok (text sql)) := by
  induction links with
  | nil => rfl
  | cons link links ih =>
      rw [List.forall_mem_cons] at formed
      have here := link.referencePath_spec builtIn formed.1.1 formed.1.2
      rw [List.find?_cons, List.findSome?_cons]
      cases reaching : link.references.any link.reaches with
      | true =>
          rw [if_pos reaching] at here
          obtain ⟨sql, written, conjoins⟩ := here
          rw [written]
          exact ⟨sql, rfl, conjoins⟩
      | false =>
          rw [if_neg (by simp [reaching])] at here
          rw [here]
          exact ih formed.2

/-- What a join along references ends with, once both sides are written. -/
theorem run_relationText_join {arguments : Arguments} {kind : JoinKind} {left right : Relation}
    (nearSize : near.length = left.size) {memo memo₁ memo₂ : Option Memo}
    {leftText rightText : String}
    (leftWritten : (w.relationText arguments left near).run memo = (.ok leftText, memo₁))
    (rightWritten : (w.relationText arguments right far).run memo₁ = (.ok rightText, memo₂)) :
    (w.relationText arguments (.join kind left right none) (near ++ far)).run memo =
      (match (between near far).findSome? fun link => w.referencePath link.near link.far with
      | none => .error (.noPath (tableNames near) (tableNames far))
      | some sql => .ok (w.joinText kind left right leftText rightText sql), memo₂) := by
  rw [relationText, ← nearSize, List.take_left, List.drop_left, ExceptT.run_bind_of_ok leftWritten,
    ExceptT.run_bind_of_ok rightWritten, joinCondition, findSome?_pathBetween]
  cases (between near far).findSome? fun link => w.referencePath link.near link.far <;> rfl

end Workspace

namespace Link

variable {near far : List Binding} {link : Link}

/-- Tables under different labels are linked under different labels, a table to itself as well. -/
theorem label_ne (distinct : ((near ++ far).map Binding.label).Nodup)
    (member : link ∈ between near far) : link.near.label ≠ link.far.label := by
  rw [List.map_append, List.nodup_append] at distinct
  have apart {a b : Binding} (aNear : a ∈ near) (bFar : b ∈ far) : a.label ≠ b.label :=
    distinct.2.2 _ (List.mem_map_of_mem aNear) _ (List.mem_map_of_mem bFar)
  rcases mem_between.1 member with ⟨inNear, inFar⟩ | ⟨inNear, inFar⟩
  · exact apart inNear inFar
  · exact (apart inNear inFar).symm

theorem firstReaching?_of_none (none_ : first? near far = none) :
    firstReaching? near far = none := by
  refine List.find?_eq_none.2 fun link member reaching => ?_
  obtain ⟨r, present, -⟩ := List.any_eq_true.1 reaching
  have empty := List.find?_eq_none.1 none_ link member
  rw [Bool.not_eq_true, Bool.not_eq_false', List.isEmpty_iff] at empty
  rw [empty] at present
  cases present

theorem firstReaching?_of_all (first : first? near far = some link)
    (all : link.references.all link.reaches = true) : firstReaching? near far = some link := by
  obtain ⟨here, before, after, split, earlier⟩ := List.find?_eq_some_iff_append.1 first
  refine List.find?_eq_some_iff_append.2 ⟨?_, before, after, split, fun other member => ?_⟩
  · rw [Bool.not_eq_true', List.isEmpty_eq_false_iff] at here
    obtain ⟨r, rest, references⟩ := List.exists_cons_of_ne_nil here
    rw [references, List.all_cons, Bool.and_eq_true] at all
    rw [references, List.any_cons, all.1, Bool.true_or]
  · have empty := earlier other member
    rw [Bool.not_not, List.isEmpty_iff] at empty
    rw [empty]
    rfl

/-- References that are written down lead to columns that are there. -/
theorem Conjoins.all {d : BuiltinDialect} {references : List Reference} {sql : String}
    (conjoins : link.Conjoins d references sql) : references.all link.reaches = true := by
  obtain ⟨first, rest, equations, -⟩ := conjoins
  rw [List.all_eq_true]
  intro r member
  obtain ⟨e, -, ⟨-, far⟩⟩ := equations.exists_of_mem member
  exact Option.isSome_iff_exists.2 ⟨_, far⟩

end Link

variable {w : Workspace} {d : BuiltinDialect} {arguments : Arguments} {near far : List Binding}

/-- A join along references is over those of the first link with a reference to a column that is
there, and only over such references; it fails if there are none.  So nothing is lost, and it fails
just for want of references, exactly if all references of the first link lead to columns that are
there. -/
theorem join_keeps_references_iff (builtIn : w.dialect = d.dialect) {kind : JoinKind}
    {left right : Relation}
    (nearTables : near.map Binding.table = left.tables)
    (farTables : far.map Binding.table = right.tables)
    (distinct : ((near ++ far).map Binding.label).Nodup)
    (wellFormed : ∀ t ∈ left.tables ++ right.tables, t.WellFormed d.dialect)
    {memo memo₁ memo₂ : Option Memo} {leftText rightText : String}
    (leftWritten : (w.relationText arguments left near).run memo = (.ok leftText, memo₁))
    (rightWritten : (w.relationText arguments right far).run memo₁ = (.ok rightText, memo₂)) :
    ∃ outcome,
      (w.relationText arguments (.join kind left right none) (near ++ far)).run memo =
        (outcome, memo₂) ∧
      EndsOver d (w.joinText kind left right leftText rightText)
        (.noPath (Workspace.tableNames near) (Workspace.tableNames far))
        (fun link => link.references.filter link.reaches) (Link.firstReaching? near far) outcome ∧
      (∀ link ∈ Link.between near far, link.near.label ≠ link.far.label) ∧
      (EndsOver d (w.joinText kind left right leftText rightText)
        (.noPath (Workspace.tableNames near) (Workspace.tableNames far))
        Link.references (Link.first? near far) outcome ↔
        ∀ link, Link.first? near far = some link →
          ∀ r ∈ link.references, (link.far.table.column? r.far).isSome = true) := by
  have nearSize : near.length = left.size := by
    rw [← left.length_tables, ← nearTables, List.length_map]
  have formed : ∀ b ∈ near ++ far, b.table.WellFormed d.dialect := fun b member =>
    wellFormed _ (nearTables ▸ farTables ▸ List.map_append ▸ List.mem_map_of_mem member)
  have pairs : ∀ link ∈ Link.between near far, link.near.table.WellFormed d.dialect ∧
      link.far.table.WellFormed d.dialect := by
    intro link member
    have nearFormed {b : Binding} (inNear : b ∈ near) := formed b (List.mem_append_left far inNear)
    have farFormed {b : Binding} (inFar : b ∈ far) := formed b (List.mem_append_right near inFar)
    rcases Link.mem_between.1 member with ⟨inNear, inFar⟩ | ⟨inNear, inFar⟩
    · exact ⟨nearFormed inNear, farFormed inFar⟩
    · exact ⟨farFormed inFar, nearFormed inNear⟩
  have ends := Workspace.endsOver_findSome? builtIn pairs
    (w.joinText kind left right leftText rightText)
    (.noPath (Workspace.tableNames near) (Workspace.tableNames far))
  refine ⟨_, Workspace.run_relationText_join nearSize leftWritten rightWritten, ends,
    fun link member => Link.label_ne distinct member, ?_⟩
  cases first : Link.first? near far with
  | none =>
      have nothing : (Link.between near far).find? _ = none := Link.firstReaching?_of_none first
      rw [nothing] at ends
      exact iff_of_true ends nofun
  | some link =>
      constructor
      · rintro ⟨sql, -, conjoins⟩ _ ⟨⟩
        exact List.all_eq_true.1 conjoins.all
      · intro all
        have there := all link rfl
        have found : (Link.between near far).find? _ = some link :=
          Link.firstReaching?_of_all first (List.all_eq_true.2 there)
        rw [found] at ends
        obtain ⟨sql, written, conjoins⟩ := ends
        exact ⟨sql, written, List.filter_eq_self.2 there ▸ conjoins⟩

namespace Link

section Zoo

/-- A table of numbers. -/
def numberTable (name : String) (columns : List String) (references : List Reference) : Table :=
  { Table.new sqlite.dialect name with columns := columns.map numberColumn, references }

theorem wellFormed_numberTable {columns : List String} {references : List Reference}
    (distinct : columns.Nodup) (rooted : ∀ r ∈ references, r.near ∈ columns) (name : String) :
    (numberTable name columns references).WellFormed sqlite.dialect := by
  have keys : (columns.map numberColumn).map Column.key = columns := by
    rw [List.map_map]
    exact List.map_id' columns
  have names : (columns.map numberColumn).map Column.name = columns := by
    rw [List.map_map]
    exact List.map_id' columns
  exact {
    quoted := by simp [numberTable, numberColumn]
    keys := keys.symm ▸ distinct
    names := names.symm ▸ distinct
    indices := by simp [numberTable, Table.new]
    references := keys.symm ▸ rooted
    quotedTable := rfl
    quotedIndices := by simp [numberTable, Table.new]
    ownIndices := by simp [numberTable, Table.new] }

/-- Zoos with a number and a code. -/
def zoos : Table :=
  numberTable "zoos" ["id", "code"] []

/-- Animals that refer to their zoo by its number and its code. -/
def animals : Table :=
  numberTable "animals" ["zoo_id", "zoo_code"]
    [⟨"zoo_id", "zoos", "id"⟩, ⟨"zoo_code", "zoos", "code"⟩]

/-- The zoos after their codes have been dropped. -/
def codelessZoos : Table :=
  zoos.forgetColumn "code"

def housing : Relation :=
  .join .inner (.table animals) (.table codelessZoos) none

def housingLink : Link where
  near := ⟨"animals", animals⟩
  far := ⟨"zoos", codelessZoos⟩

def housingText : String :=
  r#""animals" INNER JOIN "zoos" ON "animals"."zoo_id" = "zoos"."id""#

/-- Once the codes are dropped, the join of animals with their zoos is over the numbers only. -/
theorem join_of_codelessZoos :
    (sqlite.workspace.relationText [] housing housing.bindings).run none =
      (.ok housingText, none) ∧
    ¬EndsOver sqlite (sqlite.workspace.joinText .inner (.table animals) (.table codelessZoos)
        animals.quotedName codelessZoos.quotedName) (.noPath "animals" "zoos") Link.references
      (Link.first? [⟨"animals", animals⟩] [⟨"zoos", codelessZoos⟩]) (.ok housingText) := by
  obtain ⟨text, resolved, rfl⟩ : ∃ text, (sqlite.workspace.relationText [] housing
      housing.bindings).run none = (.ok text, none) ∧ text = housingText :=
    ⟨_, rfl, by decide +kernel⟩
  have wellFormed : ∀ t ∈ [animals] ++ [codelessZoos], t.WellFormed sqlite.dialect := by
    simp only [List.cons_append, List.nil_append, List.forall_mem_cons]
    exact ⟨wellFormed_numberTable (by decide) (by decide) "animals",
      (wellFormed_numberTable (by decide) (by decide) "zoos").forgetColumn "code", nofun⟩
  obtain ⟨outcome, ended, -, -, complete⟩ := @join_keeps_references_iff sqlite.workspace sqlite []
    [⟨"animals", animals⟩] [⟨"zoos", codelessZoos⟩] rfl .inner (.table animals)
    (.table codelessZoos) rfl rfl (by decide) wellFormed none none none animals.quotedName
    codelessZoos.quotedName rfl rfl
  have same : outcome = .ok housingText := congrArg Prod.fst (ended.symm.trans resolved)
  refine ⟨resolved, fun keeps => ?_⟩
  have declared : housingLink.references = animals.references := rfl
  have there := (same ▸ complete).1 keeps housingLink rfl ⟨"zoo_code", "zoos", "code"⟩
    (declared ▸ List.mem_cons_of_mem _ List.mem_cons_self)
  cases there

end Zoo

end Link

end RowQuery
