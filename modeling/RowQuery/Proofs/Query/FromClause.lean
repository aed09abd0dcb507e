import RowQuery.Proofs.Query.JoinTree
import RowQuery.Proofs.Query.OutputName
import RowQuery.Proofs.Reach.Condition
import RowQuery.Proofs.Table.WellFormed

/-!
# FROM clauses denote relations

The FROM clause of a relation is read as a tree over the tables of the relation, each under a label
of its own, and on every database this tree has the combinations of the relation.  Where there
are no right joins, the sides of some joins have changed places, and nothing else.
-/

namespace RowQuery

open RowQuery.Sql BuiltinDialect RestrictionRequest

/-- The lexemes of the condition that is written for a join between some tables. -/
def Workspace.JoinsOn (w : Workspace) (d : BuiltinDialect) (arguments : Arguments)
    (path : Option Lambda) (near far : List Binding) (condition : List Lexeme) : Prop :=
  ∃ sql memo memo', Recalls w d.Asks memo ∧
    (w.joinCondition arguments path near far).run memo = (.ok sql, memo') ∧
    d.lexemes? sql = some condition

/-- A relation under labels as a tree: the tables in their order, the joins of the same kinds with
the same sides, and the conditions that are written for them. -/
inductive Relation.IsTree (w : Workspace) (d : BuiltinDialect) (arguments : Arguments) :
    Relation → List Binding → JoinTree → Prop
  | table (t : Table) (label : String) :
      IsTree w d arguments (.table t) [⟨label, t⟩] (.table t.name label)
  | join {left right : Relation} {near far : List Binding} {l r : JoinTree}
      {path : Option Lambda} {condition : List Lexeme} (kind : JoinKind)
      (nearTree : IsTree w d arguments left near l) (farTree : IsTree w d arguments right far r)
      (joinsOn : w.JoinsOn d arguments path near far condition) :
      IsTree w d arguments (.join kind left right path) (near ++ far) (.join kind l r condition)

theorem Relation.IsTree.leaves_eq {w : Workspace} {d : BuiltinDialect} {arguments : Arguments}
    {r : Relation} {bindings : List Binding} {tree : JoinTree}
    (isTree : r.IsTree w d arguments bindings tree) :
    tree.leaves = bindings.map fun b => (b.table.name, b.label) := by
  induction isTree with
  | table => rfl
  | join kind _ _ _ ihNear ihFar => rw [JoinTree.leaves, ihNear, ihFar, List.map_append]

theorem Relation.IsTree.labels_eq {w : Workspace} {d : BuiltinDialect} {arguments : Arguments}
    {r : Relation} {bindings : List Binding} {tree : JoinTree}
    (isTree : r.IsTree w d arguments bindings tree) :
    tree.labels = bindings.map Binding.label := by
  rw [JoinTree.labels, isTree.leaves_eq, List.map_map]
  rfl

namespace Relation

theorem size_pos (r : Relation) : 0 < r.size := by
  induction r with
  | table => exact Nat.one_pos
  | join kind left right path ihLeft ihRight => exact Nat.add_pos_left ihLeft _

variable {left right : Relation} {kind : JoinKind} {path : Option Lambda} {bindings : List Binding}

/-- The first tables of a join are those of its left side, and the others those of its right. -/
theorem map_table_sides (tables : bindings.map Binding.table = (join kind left right path).tables) :
    (bindings.take left.size).map Binding.table = left.tables ∧
      (bindings.drop left.size).map Binding.table = right.tables := by
  rw [List.map_take, List.map_drop, tables, ← left.length_tables]
  exact ⟨List.take_left, List.drop_left⟩

theorem one_lt_length (tables : bindings.map Binding.table = (join kind left right path).tables) :
    1 < bindings.length := by
  have length := congrArg List.length tables
  rw [List.length_map, length_tables, size] at length
  have := left.size_pos
  have := right.size_pos
  omega

end Relation

namespace BuiltinDialect

variable {w : Workspace} {d : BuiltinDialect} {arguments : Arguments} {bindings : List Binding}
variable {tree left right : JoinTree} {r : Relation} {text first second sql : String}

/-- The tree that a dialect writes for another one. -/
def arranged (d : BuiltinDialect) (tree : JoinTree) : JoinTree :=
  if d.dialect.hasRightJoin then tree else tree.mirrored

/-! ## Texts of tables and joins -/

theorem writes_tableText (regular : w.Regular d) {b : Binding}
    (named : b.table.quotedName = d.dialect.quoteName b.table.name) :
    d.WritesOperand (w.tableText b) (.table b.table.name b.label) := by
  rw [Workspace.tableText, named, regular.dialect]
  split
  · rename_i same
    rw [same]
    exact writes_table b.table.name
  · exact writes_renamed b.table.name b.label

/-- The text of a relation is read as a tree.  The text of a table can stand on the right of a
join, where a join would need brackets. -/
def WritesRelation (d : BuiltinDialect) (r : Relation) (text : String) (tree : JoinTree) : Prop :=
  if r.isJoin then d.Writes text tree else d.WritesOperand text tree

theorem WritesRelation.writes (writes : d.WritesRelation r text tree) : d.Writes text tree := by
  unfold WritesRelation at writes
  split at writes
  · exact writes
  · exact WritesOperand.writes writes

theorem WritesRelation.behind (writes : d.WritesRelation r text tree) :
    d.WritesOperand (if r.isJoin then Text.bracketed text else text) tree := by
  unfold WritesRelation at writes
  split at writes
  · rename_i nested
    rw [if_pos nested]
    exact Writes.bracketed writes
  · rename_i plain
    rw [if_neg plain]
    exact writes

/-- Where there is no right join, the sides of one change places. -/
theorem writes_joinText (regular : w.Regular d) {kind : JoinKind} {l r : Relation}
    (leftWrites : d.WritesRelation l first (d.arranged left))
    (rightWrites : d.WritesRelation r second (d.arranged right))
    {condition : List Lexeme} (found : d.lexemes? sql = some condition)
    (plain : ∀ lexeme ∈ condition, lexeme.isJoin = false) (closed : level 0 condition = some 0) :
    d.Writes (w.joinText kind l r first second sql)
      (d.arranged (.join kind left right condition)) := by
  have forth (kind : JoinKind) :=
    leftWrites.writes.join kind rightWrites.behind found plain closed
  have back := rightWrites.writes.join .left leftWrites.behind found plain closed
  rw [Workspace.joinText, regular.dialect]
  unfold arranged at forth back ⊢
  cases mirrors : d.dialect.hasRightJoin with
  | true =>
      rw [mirrors] at forth
      rw [Bool.not_true, Bool.and_false]
      exact forth kind
  | false =>
      rw [mirrors] at forth back
      cases kind with
      | inner => exact forth .inner
      | left => exact forth .left
      | right => exact back

/-! ## Conditions -/

/-- The condition of a join is closed, and its names are columns of the tables that it joins. -/
theorem ensures_condition (regular : w.Regular d) {near far : List Binding}
    (quotes : d.Quotes (near ++ far)) (several : 1 < (near ++ far).length)
    (path : Option Lambda) :
    Memoized.Ensures w d.Asks (w.joinCondition arguments path near far) fun sql =>
      ∃ condition, d.lexemes? sql = some condition ∧
        w.JoinsOn d arguments path near far condition ∧ level 0 condition = some 0 ∧
        (∀ lexeme ∈ condition, lexeme.isJoin = false) ∧
        ∀ path, .name path ∈ condition →
          ∃ label ∈ (near ++ far).map Binding.label, ∃ column, path = [label, column] := by
  refine (ensures_joinCondition regular quotes path).traced.imp ?_
  rintro sql ⟨⟨condition, found, allowed, closed⟩, memo, memo', recalls, ran⟩
  refine ⟨condition, found, ⟨sql, memo, memo', recalls, ran, found⟩, closed,
    fun lexeme member => (allowed lexeme member).isJoin_eq, fun path member => ?_⟩
  have column : (Reach.ofBindings (near ++ far)).Column path := allowed _ member
  have qualified : (Reach.ofBindings (near ++ far)).qualified = true := decide_eq_true several
  rwa [Reach.Column, if_pos qualified] at column

/-! ## Texts of relations -/

/-- The columns of well-formed tables are quoted in the way of the dialect. -/
theorem quotes_of_wellFormed (tables : bindings.map Binding.table = r.tables)
    (wellFormed : ∀ t ∈ r.tables, t.WellFormed d.dialect) : d.Quotes bindings :=
  fun _ member => (wellFormed _ (tables ▸ List.mem_map_of_mem member)).quoted

/-- The text of a relation is read as the tree of the relation in the arrangement of the dialect. -/
theorem ensures_relationText_writes (regular : w.Regular d) (arguments : Arguments) (r : Relation)
    (tables : bindings.map Binding.table = r.tables)
    (wellFormed : ∀ t ∈ r.tables, t.WellFormed d.dialect) :
    Memoized.Ensures w d.Asks (w.relationText arguments r bindings) fun text =>
      ∃ tree, r.IsTree w d arguments bindings tree ∧ tree.Scoped ∧
        d.WritesRelation r text (d.arranged tree) := by
  induction r generalizing bindings with
  | table t =>
      obtain ⟨b, rfl, rfl⟩ := List.map_eq_singleton_iff.1 tables
      have named := (wellFormed b.table (List.mem_singleton.2 rfl)).quotedTable
      have writes := writes_tableText regular named
      have arranged : d.WritesRelation (.table b.table) (w.tableText b)
          (d.arranged (.table b.table.name b.label)) := by
        rw [arranged, JoinTree.mirrored, ite_self]
        exact writes
      exact Memoized.ensures_pure
        ⟨.table b.table.name b.label, .table b.table b.label, trivial, arranged⟩
  | join kind left right path ihLeft ihRight =>
      -- Each side gets as many labels as it has tables.
      obtain ⟨nearTables, farTables⟩ := Relation.map_table_sides tables
      have ensuresLeft := ihLeft nearTables fun t member =>
        wellFormed t (List.mem_append_left right.tables member)
      have ensuresRight := ihRight farTables fun t member =>
        wellFormed t (List.mem_append_right left.tables member)
      have whole : bindings.take left.size ++ bindings.drop left.size = bindings :=
        List.take_append_drop _ _
      have quotes := whole.symm ▸ quotes_of_wellFormed tables wellFormed
      have several := whole.symm ▸ Relation.one_lt_length tables
      refine ensuresLeft.bind fun leftText leftReads => ?_
      refine ensuresRight.bind fun rightText rightReads => ?_
      refine (ensures_condition regular quotes several path).bind fun sql sqlReads => ?_
      obtain ⟨l, leftTree, leftScope, leftWrites⟩ := leftReads
      obtain ⟨r, rightTree, rightScope, rightWrites⟩ := rightReads
      obtain ⟨condition, found, joinsOn, closed, plain, columns⟩ := sqlReads
      have isTree := Relation.IsTree.join kind leftTree rightTree joinsOn
      rw [List.map_append, ← leftTree.labels_eq, ← rightTree.labels_eq] at columns
      refine Memoized.ensures_pure
        ⟨.join kind l r condition, whole ▸ isTree, ⟨leftScope, rightScope, columns⟩, ?_⟩
      exact writes_joinText regular leftWrites rightWrites found plain closed

theorem avoidsRight_arranged (mirrors : d.dialect.hasRightJoin = false) (tree : JoinTree) :
    (d.arranged tree).AvoidsRight := by
  rw [arranged, mirrors]
  exact tree.avoidsRight_mirrored

theorem leaves_arranged (tree : JoinTree) : (d.arranged tree).leaves.Perm tree.leaves := by
  unfold arranged
  split
  · exact .refl _
  · exact tree.leaves_mirrored

theorem scoped_arranged (inScope : tree.Scoped) : (d.arranged tree).Scoped := by
  unfold arranged
  split
  · exact inScope
  · exact inScope.mirrored

theorem rows_arranged (distinct : tree.labels.Nodup) {R : Type} (database : String → Multiset R)
    (meets : List Lexeme → Combination R → Bool) :
    (d.arranged tree).rows database meets = tree.rows database meets := by
  unfold arranged
  split
  · rfl
  · exact JoinTree.rows_mirrored database meets distinct

/-- The FROM clause of a relation denotes the relation.  Its tables have different labels, in the
order of the relation.  The text is read as a tree of joins over just these tables and labels,
without right joins where the dialect has none; each condition names columns of tables under its
own join only; and whatever the tables contain and whichever conditions are met, the tree has the
combinations of rows of the relation.  Only a comment in a condition would hide what follows. -/
theorem from_denotes_relation (regular : w.Regular d)
    (wellFormed : ∀ t ∈ r.tables, t.WellFormed d.dialect) {memo memo' : Option Memo}
    (recalls : Recalls w d.Asks memo)
    (resolved : (w.relationText arguments r r.bindings).run memo = (.ok text, memo')) :
    (r.bindings.map Binding.label).Nodup ∧ r.bindings.map Binding.table = r.tables ∧
      ∃ relationTree tree, r.IsTree w d arguments r.bindings relationTree ∧
        (d.hasComment text = false → d.joinTree? text = some tree) ∧
        tree.leaves.Perm (r.bindings.map fun b => (b.table.name, b.label)) ∧
        (d.dialect.hasRightJoin = false → tree.AvoidsRight) ∧ tree.Scoped ∧
        ∀ (R : Type) (database : String → Multiset R) (meets : List Lexeme → Combination R → Bool),
          tree.rows database meets = relationTree.rows database meets := by
  have distinct := r.label_bindings_nodup
  have ensures := ensures_relationText_writes regular arguments r r.map_table_bindings wellFormed
  obtain ⟨tree, isTree, inScope, writes⟩ :=
    (ensures memo recalls).2 text (congrArg Prod.fst resolved)
  refine ⟨distinct, r.map_table_bindings, tree, d.arranged tree, isTree,
    writes.writes.joinTree?_eq, ?_, fun mirrors => avoidsRight_arranged mirrors tree,
    scoped_arranged inScope, fun R database meets => rows_arranged ?_ database meets⟩
  · exact isTree.leaves_eq ▸ leaves_arranged tree
  · rw [isTree.labels_eq]
    exact distinct

section Family

def numberColumn (name : String) : Column where
  key := name
  name := name
  quotedName := sqlite.dialect.quoteName name
  kind := .int
  type := .integerOf "INTEGER" 8

/-- People who know one of their parents. -/
def people (name : String) : Table :=
  { Table.new sqlite.dialect name with columns := [numberColumn "id", numberColumn "parent"] }

theorem wellFormed_people (name : String) : (people name).WellFormed sqlite.dialect where
  quoted := by simp [people, numberColumn]
  keys := by simp [people, numberColumn]
  names := by simp [people, numberColumn]
  indices := by simp [people, Table.new]
  references := by simp [people, Table.new]
  quotedTable := rfl
  quotedIndices := by simp [people, Table.new]
  ownIndices := by simp [people, Table.new]

/-- The second of two people is the parent of the first. -/
def parentPath : Lambda where
  params := ["child", "parent"]
  body := .compare (.field (.param 0) "parent") .eq (.field (.param 1) "id")
  bound := by decide

/-- The first of three people is the last. -/
def samePath : Lambda where
  params := ["child", "parent", "same"]
  body := .compare (.field (.param 0) "id") .eq (.field (.param 2) "id")
  bound := by decide

/-- A join on the left of a right join, with a table whose name is the label that the second use of
another one would get. -/
def families : Relation :=
  .join .right
    (.join .left (.table (people "people")) (.table (people "people")) (some parentPath))
    (.table (people "people_2")) (some samePath)

def familiesText : String :=
  r#""people_2" AS "people_2_2" LEFT JOIN ("people" LEFT JOIN "people" AS "people_2" ON "people"."parent" = "people_2"."id") ON "people"."id" = "people_2_2"."id""#

theorem from_denotes_families :
    (sqlite.workspace.relationText [] families families.bindings).run none =
      (.ok familiesText, none) ∧
    (families.bindings.map Binding.label).Nodup ∧
    ∃ relationTree tree,
      families.IsTree sqlite.workspace sqlite [] families.bindings relationTree ∧
      sqlite.joinTree? familiesText = some tree ∧ tree.AvoidsRight ∧ tree.Scoped ∧
      ∀ (R : Type) (database : String → Multiset R) (meets : List Lexeme → Combination R → Bool),
        tree.rows database meets = relationTree.rows database meets := by
  have wellFormed : ∀ t ∈ families.tables, t.WellFormed sqlite.dialect := by
    simp [families, Relation.tables, wellFormed_people]
  obtain ⟨text, resolved, rfl⟩ : ∃ text, (sqlite.workspace.relationText [] families
      families.bindings).run none = (.ok text, none) ∧ text = familiesText :=
    ⟨_, rfl, by decide +kernel⟩
  have uncommented : sqlite.hasComment familiesText = false := by decide +kernel
  obtain ⟨distinct, -, relationTree, tree, isTree, found, -, avoids, inScope, same⟩ :=
    from_denotes_relation sqlite.regular_workspace wellFormed recalls_none resolved
  exact ⟨resolved, distinct, relationTree, tree, isTree, found uncommented, avoids rfl, inScope, same⟩

end Family

section Days

def days : Table :=
  { Table.new sqlite.dialect "days" with
    columns := [{
      key := "day"
      name := "day"
      quotedName := sqlite.dialect.quoteName "day"
      kind := .date
      type := .plainOf "DATE" .date }] }

/-- The second of two days is the first one less a negative day. -/
def nextDay : Lambda where
  params := ["day", "next"]
  body := .compare
    (.arithmetic (.field (.param 0) "day") .sub
      (.constant (.interval ⟨-86400000000000, by decide⟩)))
    .eq (.field (.param 1) "day")
  bound := by decide

def nextDays : Relation :=
  .join .inner (.table days) (.table days) (some nextDay)

def nextDaysText : String :=
  r#""days" INNER JOIN "days" AS "days_2" ON date("days"."day", printf('%+.6f seconds', --86400)) = "days_2"."day""#

/-- A relation with a FROM clause that ends in a comment. -/
theorem comment_hides_nextDays :
    (sqlite.workspace.relationText [] nextDays nextDays.bindings).run none =
      (.ok nextDaysText, none) ∧
    sqlite.hasComment nextDaysText = true ∧ sqlite.joinTree? nextDaysText = none := by
  obtain ⟨text, resolved, rfl⟩ : ∃ text, (sqlite.workspace.relationText [] nextDays
      nextDays.bindings).run none = (.ok text, none) ∧ text = nextDaysText :=
    ⟨_, rfl, by decide +kernel⟩
  have commented : sqlite.hasComment nextDaysText = true := by decide +kernel
  exact ⟨resolved, commented, if_pos commented⟩

end Days

end BuiltinDialect

end RowQuery
