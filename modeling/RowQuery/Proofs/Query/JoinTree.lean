import Mathlib.Data.Multiset.Bind
import RowQuery.Proofs.Sql.Reach
import RowQuery.Query.Relation

/-!
# Trees of joins

What a FROM clause says: which tables are joined under which labels, in which order, and on which
conditions.  On a database the tree has combinations of rows, each as often as it comes about.
A right join is a left join with its sides exchanged.
-/

namespace RowQuery

namespace Sql

/-- Tables under labels, joined on conditions. -/
inductive JoinTree where
  | table (name label : String)
  | join (kind : JoinKind) (left right : JoinTree) (condition : List Lexeme)
  deriving DecidableEq

/-- A row under each label, or none where a join found no partner. -/
def Combination (R : Type) : Type :=
  String → Option R

namespace Combination

variable {R : Type}

/-- A row under one label. -/
def single (label : String) (row : R) : Combination R :=
  fun other => if other = label then some row else none

/-- The rows of both sides. -/
def beside (a b : Combination R) : Combination R :=
  fun label => (a label).or (b label)

/-- There are only rows under some labels. -/
def Within (labels : List String) (a : Combination R) : Prop :=
  ∀ label, label ∉ labels → a label = none

theorem within_single (label : String) (row : R) : (single label row).Within [label] :=
  fun _ other => if_neg fun same => other (List.mem_singleton.2 same)

variable {near far : List String} {a b : Combination R}

theorem Within.left (within : a.Within near) (far : List String) : a.Within (near ++ far) :=
  fun label absent => within label fun member => absent (List.mem_append_left far member)

theorem Within.right (within : b.Within far) (near : List String) : b.Within (near ++ far) :=
  fun label absent => within label fun member => absent (List.mem_append_right near member)

theorem Within.beside (left : a.Within near) (right : b.Within far) :
    (a.beside b).Within (near ++ far) := by
  intro label absent
  rw [Combination.beside, left.left far label absent, right.right near label absent]
  rfl

theorem beside_comm (left : a.Within near) (right : b.Within far) (apart : near.Disjoint far) :
    a.beside b = b.beside a := by
  funext label
  by_cases member : label ∈ near
  · rw [beside, beside, right label (apart member), Option.or_none, Option.none_or]
  · rw [beside, beside, left label member, Option.or_none, Option.none_or]

/-- What was found for a combination, or the combination alone. -/
def orAlone (a : Combination R) (found : Multiset (Combination R)) : Multiset (Combination R) :=
  if found.card = 0 then {a} else found

theorem mem_orAlone {found : Multiset (Combination R)} (member : b ∈ a.orAlone found) :
    b = a ∨ b ∈ found := by
  unfold orAlone at member
  split at member
  · exact .inl (Multiset.mem_singleton.1 member)
  · exact .inr member

/-- The combinations of a join of two sides. -/
def joined (kind : JoinKind) (meets : Combination R → Bool) (near far : Multiset (Combination R)) :
    Multiset (Combination R) :=
  match kind with
  | .inner => near.bind fun a => (far.map fun b => a.beside b).filter (meets · = true)
  | .left => near.bind fun a => a.orAlone ((far.map fun b => a.beside b).filter (meets · = true))
  | .right => far.bind fun b => b.orAlone ((near.map fun a => a.beside b).filter (meets · = true))

/-- With the sides exchanged a right join is a left join. -/
theorem joined_exchanged (meets : Combination R → Bool) {left right : Multiset (Combination R)}
    (nears : ∀ a ∈ left, a.Within near) (fars : ∀ b ∈ right, b.Within far)
    (apart : near.Disjoint far) :
    joined .left meets right left = joined .right meets left right := by
  refine Multiset.bind_congr fun b inRight => ?_
  have pairs : (left.map fun a => b.beside a) = left.map fun a => a.beside b :=
    Multiset.map_congr rfl fun a inLeft =>
      (beside_comm (nears a inLeft) (fars b inRight) apart).symm
  rw [pairs]

/-- A combination of a join is one of both sides or of one side alone. -/
theorem mem_joined {kind : JoinKind} {meets : Combination R → Bool}
    {left right : Multiset (Combination R)} {c : Combination R}
    (member : c ∈ joined kind meets left right) :
    (∃ a ∈ left, ∃ b ∈ right, c = a.beside b) ∨ c ∈ left ∨ c ∈ right := by
  cases kind with
  | inner =>
      obtain ⟨a, inLeft, found⟩ := Multiset.mem_bind.1 member
      obtain ⟨b, inRight, rfl⟩ := Multiset.mem_map.1 (Multiset.mem_of_mem_filter found)
      exact .inl ⟨a, inLeft, b, inRight, rfl⟩
  | left =>
      obtain ⟨a, inLeft, found⟩ := Multiset.mem_bind.1 member
      rcases mem_orAlone found with rfl | found
      · exact .inr (.inl inLeft)
      · obtain ⟨b, inRight, rfl⟩ := Multiset.mem_map.1 (Multiset.mem_of_mem_filter found)
        exact .inl ⟨a, inLeft, b, inRight, rfl⟩
  | right =>
      obtain ⟨b, inRight, found⟩ := Multiset.mem_bind.1 member
      rcases mem_orAlone found with rfl | found
      · exact .inr (.inr inRight)
      · obtain ⟨a, inLeft, rfl⟩ := Multiset.mem_map.1 (Multiset.mem_of_mem_filter found)
        exact .inl ⟨a, inLeft, b, inRight, rfl⟩

end Combination

namespace JoinTree

/-- The tables with their labels from left to right. -/
def leaves : JoinTree → List (String × String)
  | table name label => [(name, label)]
  | join _ left right _ => left.leaves ++ right.leaves

def labels (t : JoinTree) : List String :=
  t.leaves.map Prod.snd

/-- The names of a condition are columns of tables under its join. -/
def Scoped : JoinTree → Prop
  | table .. => True
  | join _ left right condition => left.Scoped ∧ right.Scoped ∧
      ∀ path, .name path ∈ condition →
        ∃ label ∈ left.labels ++ right.labels, ∃ column, path = [label, column]

/-- No join is a right join. -/
def AvoidsRight : JoinTree → Prop
  | table .. => True
  | join kind left right _ => kind ≠ .right ∧ left.AvoidsRight ∧ right.AvoidsRight

/-- The same joins without right joins. -/
def mirrored : JoinTree → JoinTree
  | table name label => table name label
  | join .inner left right condition => join .inner left.mirrored right.mirrored condition
  | join .left left right condition => join .left left.mirrored right.mirrored condition
  | join .right left right condition => join .left right.mirrored left.mirrored condition

/-- The combinations of rows on a database, where each condition is met or not. -/
def rows {R : Type} (database : String → Multiset R)
    (meets : List Lexeme → Combination R → Bool) : JoinTree → Multiset (Combination R)
  | table name label => (database name).map (Combination.single label)
  | join kind left right condition =>
      Combination.joined kind (meets condition) (left.rows database meets)
        (right.rows database meets)

theorem labels_join (kind : JoinKind) (left right : JoinTree) (condition : List Lexeme) :
    (join kind left right condition).labels = left.labels ++ right.labels :=
  List.map_append

theorem leaves_mirrored (t : JoinTree) : t.mirrored.leaves.Perm t.leaves := by
  induction t with
  | table => exact .refl _
  | join kind left right condition ihLeft ihRight =>
      cases kind with
      | inner => exact ihLeft.append ihRight
      | left => exact ihLeft.append ihRight
      | right => exact (ihRight.append ihLeft).trans List.perm_append_comm

theorem labels_mirrored (t : JoinTree) : t.mirrored.labels.Perm t.labels :=
  t.leaves_mirrored.map Prod.snd

theorem avoidsRight_mirrored (t : JoinTree) : t.mirrored.AvoidsRight := by
  induction t with
  | table => trivial
  | join kind left right condition ihLeft ihRight =>
      cases kind with
      | inner => exact ⟨by decide, ihLeft, ihRight⟩
      | left => exact ⟨by decide, ihLeft, ihRight⟩
      | right => exact ⟨by decide, ihRight, ihLeft⟩

theorem Scoped.mirrored {t : JoinTree} (inScope : t.Scoped) : t.mirrored.Scoped := by
  induction t with
  | table => trivial
  | join kind left right condition ihLeft ihRight =>
      obtain ⟨leftScope, rightScope, own⟩ := inScope
      have labels (label : String) : label ∈ left.mirrored.labels ++ right.mirrored.labels ↔
          label ∈ left.labels ++ right.labels :=
        (left.labels_mirrored.append right.labels_mirrored).mem_iff
      have here (path : List String) (member : .name path ∈ condition) :
          ∃ label ∈ left.mirrored.labels ++ right.mirrored.labels, ∃ column,
            path = [label, column] := by
        obtain ⟨label, under, rest⟩ := own path member
        exact ⟨label, (labels label).2 under, rest⟩
      cases kind with
      | inner => exact ⟨ihLeft leftScope, ihRight rightScope, here⟩
      | left => exact ⟨ihLeft leftScope, ihRight rightScope, here⟩
      | right =>
          refine ⟨ihRight rightScope, ihLeft leftScope, fun path member => ?_⟩
          obtain ⟨label, under, rest⟩ := here path member
          exact ⟨label, List.perm_append_comm.mem_iff.1 under, rest⟩

variable {R : Type} (database : String → Multiset R) (meets : List Lexeme → Combination R → Bool)

theorem within_rows (t : JoinTree) : ∀ a ∈ t.rows database meets, a.Within t.labels := by
  induction t with
  | table name label =>
      intro a member
      obtain ⟨row, -, rfl⟩ := Multiset.mem_map.1 member
      exact Combination.within_single label row
  | join kind left right condition ihLeft ihRight =>
      intro c member
      rw [labels_join]
      rcases Combination.mem_joined member with ⟨a, inLeft, b, inRight, rfl⟩ | inLeft | inRight
      · exact (ihLeft a inLeft).beside (ihRight b inRight)
      · exact (ihLeft c inLeft).left right.labels
      · exact (ihRight c inRight).right left.labels

/-- Without right joins the combinations are the same, if each label stands for one table. -/
theorem rows_mirrored {t : JoinTree} (distinct : t.labels.Nodup) :
    t.mirrored.rows database meets = t.rows database meets := by
  induction t with
  | table => rfl
  | join kind left right condition ihLeft ihRight =>
      rw [labels_join, List.nodup_append'] at distinct
      obtain ⟨distinctLeft, distinctRight, apart⟩ := distinct
      have near := ihLeft distinctLeft
      have far := ihRight distinctRight
      cases kind with
      | inner => rw [mirrored, rows, rows, near, far]
      | left => rw [mirrored, rows, rows, near, far]
      | right =>
          rw [mirrored, rows, rows, near, far]
          exact Combination.joined_exchanged _ (left.within_rows database meets)
            (right.within_rows database meets) apart

end JoinTree

end Sql

end RowQuery

/-!
# FROM clauses as trees of joins

A reader goes through the lexemes of a FROM clause and remembers on a stack what is open to its
left: round brackets, and joins whose right side is not complete.  Joins without brackets between
them are read from left to right, and a join that is the right side of another one has to stand in
brackets.  A condition goes on up to the next keyword of joins or up to a bracket that was opened
before it.
-/

namespace RowQuery

namespace Sql

namespace Lexeme

/-- A word that is a keyword in upper or lower case. -/
def isKeyword (keyword : String) : Lexeme → Bool
  | word letters => Text.asciiUpper letters == keyword
  | text _ | name _ | symbol _ => false

/-- A keyword of joins. -/
def isJoin : Lexeme → Bool
  | word letters => isJoinWord letters
  | text _ | name _ | symbol _ => false

/-- The join that a keyword begins. -/
def joinKind? (lexeme : Lexeme) : Option JoinKind :=
  if lexeme.isKeyword "INNER" then some .inner
  else if lexeme.isKeyword "LEFT" then some .left
  else if lexeme.isKeyword "RIGHT" then some .right
  else none

end Lexeme

theorem Reach.Allows.isJoin_eq {reach : Reach} {aggregates : Bool} {lexeme : Lexeme}
    (allows : reach.Allows aggregates lexeme) : lexeme.isJoin = false := by
  cases lexeme with
  | word letters => exact allows.1
  | text | name | symbol => rfl

/-- What a reader of joins is in the middle of. -/
inductive JoinPlace where
  /-- Before a table or an opening bracket. -/
  | operand
  /-- Behind the name of a table. -/
  | named (name : String)
  /-- Behind the name of a table and the keyword `AS`. -/
  | renamed (name : String)
  | behind (tree : JoinTree)
  /-- Behind the first keyword of a join. -/
  | begun (kind : JoinKind) (left : JoinTree)
  /-- In the condition of a join, at some depth in round brackets. -/
  | condition (kind : JoinKind) (left right : JoinTree) (depth : Nat) (before : List Lexeme)

/-- What is not complete yet. -/
inductive Opening where
  | bracket
  | joining (kind : JoinKind) (left : JoinTree)

/-- A reader of joins. -/
structure JoinReader where
  stack : List Opening
  place : JoinPlace

namespace JoinPlace

/-- What would be complete if nothing followed. -/
def whole? : JoinPlace → Option JoinTree
  | named name => some (.table name name)
  | behind tree => some tree
  | condition kind left right 0 before => some (.join kind left right before)
  | operand | renamed _ | begun .. | condition _ _ _ (_ + 1) _ => none

/-- A lexeme that opens and completes nothing. -/
def continue? (lexeme : Lexeme) : JoinPlace → Option JoinPlace
  | operand =>
      match lexeme with
      | .name [name] => some (named name)
      | _ => none
  | named name => if lexeme.isKeyword "AS" then some (renamed name) else none
  | renamed name =>
      match lexeme with
      | .name [label] => some (behind (.table name label))
      | _ => none
  | behind _ | begun .. => none
  | condition kind left right depth before =>
      if lexeme.isJoin then none
      else (lexeme.shift depth).map fun next =>
        condition kind left right next (before ++ [lexeme])

end JoinPlace

/-- No join waits for its right side, other than outside of the bracket opened last. -/
def Opening.isFree : List Opening → Bool
  | joining .. :: _ => false
  | bracket :: _ | [] => true

namespace JoinReader

/-- The lexeme behind a tree that is complete. -/
def complete? (lexeme : Lexeme) : List Opening → JoinTree → Option JoinReader
  | .joining kind left :: stack, right =>
      if lexeme.isKeyword "ON" then some ⟨stack, .condition kind left right 0 []⟩ else none
  | stack, tree =>
      match lexeme.joinKind?, lexeme, stack with
      | some kind, _, _ => some ⟨stack, .begun kind tree⟩
      | none, .symbol ')', .bracket :: outer => some ⟨outer, .behind tree⟩
      | none, _, _ => none

/-- A lexeme that opens or completes something. -/
def change? (lexeme : Lexeme) : JoinReader → Option JoinReader
  | ⟨stack, .operand⟩ =>
      if lexeme = .symbol '(' then some ⟨.bracket :: stack, .operand⟩ else none
  | ⟨stack, .begun kind left⟩ =>
      if lexeme.isKeyword "JOIN" then some ⟨.joining kind left :: stack, .operand⟩ else none
  | ⟨stack, place⟩ => place.whole?.bind (complete? lexeme stack)

def step (reader : JoinReader) (lexeme : Lexeme) : Option JoinReader :=
  match reader.place.continue? lexeme with
  | some place => some { reader with place }
  | none => reader.change? lexeme

def run (reader : JoinReader) (lexemes : List Lexeme) : Option JoinReader :=
  lexemes.foldlM step reader

/-- The tree that is complete at the end. -/
def tree? (reader : JoinReader) : Option JoinTree :=
  if reader.stack.isEmpty then reader.place.whole? else none

variable {reader next last : JoinReader} {lexeme : Lexeme} {lexemes more : List Lexeme}
variable {stack : List Opening} {place : JoinPlace} {tree left right : JoinTree} {kind : JoinKind}

theorem run_cons (stepped : reader.step lexeme = some next) :
    reader.run (lexeme :: lexemes) = next.run lexemes := by
  rw [run, List.foldlM_cons, stepped]
  rfl

theorem run_append (first : reader.run lexemes = some next) :
    reader.run (lexemes ++ more) = next.run more := by
  rw [run, List.foldlM_append, ← run, first]
  rfl

theorem change?_complete (whole : place.whole? = some tree) :
    (JoinReader.mk stack place).change? lexeme = complete? lexeme stack tree := by
  cases place with
  | operand | renamed | begun => cases whole
  | named | behind | condition =>
      exact congrArg (Option.bind · (complete? lexeme stack)) whole

/-- Behind a complete tree a bracket closes, or a keyword goes on with a join. -/
theorem step_complete (stack : List Opening) (whole : place.whole? = some tree)
    (ends : lexeme = .symbol ')' ∨ lexeme.isJoin = true) :
    (JoinReader.mk stack place).step lexeme = complete? lexeme stack tree := by
  -- The lexeme cannot belong to what is complete: it renames no table, and in a condition it would
  -- have to close a bracket that was opened there.
  have other : place.continue? lexeme = none := by
    cases place with
    | operand | renamed | begun => cases whole
    | behind => rfl
    | named =>
        rcases ends with rfl | join
        · rfl
        · refine if_neg fun renames => ?_
          cases lexeme with
          | word letters =>
              rw [Lexeme.isJoin, Lexeme.isJoinWord, beq_iff_eq.1 renames] at join
              exact absurd join (by decide)
          | text | name | symbol => cases join
    | condition kind left right depth before =>
        rcases ends with rfl | join
        · cases depth with
          | zero => rfl
          | succ => cases whole
        · exact if_pos join
  rw [step, other]
  exact change?_complete whole

/-- A condition is read to its end. -/
theorem run_condition {depth final : Nat} {before : List Lexeme}
    (plain : ∀ lexeme ∈ lexemes, lexeme.isJoin = false)
    (closed : level depth lexemes = some final) :
    (JoinReader.mk stack (.condition kind left right depth before)).run lexemes =
      some ⟨stack, .condition kind left right final (before ++ lexemes)⟩ := by
  induction lexemes generalizing depth before with
  | nil =>
      obtain rfl := Option.some.inj closed
      rw [List.append_nil]
      rfl
  | cons lexeme lexemes ih =>
      rw [List.forall_mem_cons] at plain
      rw [level, List.foldlM_cons] at closed
      obtain ⟨next, shifted, rest⟩ := Option.bind_eq_some_iff.1 closed
      have stepped : (JoinReader.mk stack (.condition kind left right depth before)).step lexeme =
          some ⟨stack, .condition kind left right next (before ++ [lexeme])⟩ := by
        simp only [step, JoinPlace.continue?, plain.1, Bool.false_eq_true, if_false, shifted,
          Option.map_some]
      rw [run_cons stepped, ih plain.2 rest, List.append_assoc]
      rfl

end JoinReader

/-! ## What spells a tree -/

open JoinReader

/-- The lexemes are read as a tree, whatever is open to their left. -/
def SpellsOperand (lexemes : List Lexeme) (tree : JoinTree) : Prop :=
  ∀ stack, ∃ place, (JoinReader.mk stack .operand).run lexemes = some ⟨stack, place⟩ ∧
    place.whole? = some tree

/-- The lexemes are read as a tree where no join waits for its right side. -/
def SpellsTree (lexemes : List Lexeme) (tree : JoinTree) : Prop :=
  ∀ stack, Opening.isFree stack = true →
    ∃ place, (JoinReader.mk stack .operand).run lexemes = some ⟨stack, place⟩ ∧
      place.whole? = some tree

variable {lexemes leftLexemes rightLexemes own : List Lexeme} {tree left right : JoinTree}
variable {kind : JoinKind}

theorem SpellsOperand.spells (spells : SpellsOperand lexemes tree) : SpellsTree lexemes tree :=
  fun stack _ => spells stack

theorem spells_table (name : String) : SpellsOperand [.name [name]] (.table name name) :=
  fun _ => ⟨.named name, rfl, rfl⟩

theorem spells_renamed (name label : String) :
    SpellsOperand [.name [name], .word "AS", .name [label]] (.table name label) :=
  fun _ => ⟨.behind (.table name label), rfl, rfl⟩

theorem SpellsTree.bracketed (spells : SpellsTree lexemes tree) :
    SpellsOperand (.symbol '(' :: (lexemes ++ [.symbol ')'])) tree := by
  intro stack
  obtain ⟨place, ran, whole⟩ := spells (.bracket :: stack) rfl
  refine ⟨.behind tree, ?_, rfl⟩
  have opens : (JoinReader.mk stack .operand).step (.symbol '(') =
      some ⟨.bracket :: stack, .operand⟩ := rfl
  have closes := step_complete (.bracket :: stack) whole (.inl rfl)
  rw [run_cons opens, run_append ran, run_cons closes]
  rfl

/-- The lexemes of the keywords that begin a join. -/
def Lexeme.ofJoinKind : JoinKind → Lexeme
  | .inner => word "INNER"
  | .left => word "LEFT"
  | .right => word "RIGHT"

/-- Behind its left side, which is read first, a join has its right side and its condition. -/
theorem SpellsTree.join (leftSpells : SpellsTree leftLexemes left)
    (rightSpells : SpellsOperand rightLexemes right)
    (plain : ∀ lexeme ∈ own, lexeme.isJoin = false) (closed : level 0 own = some 0) :
    SpellsTree (leftLexemes ++ (Lexeme.ofJoinKind kind :: .word "JOIN" ::
      (rightLexemes ++ .word "ON" :: own))) (.join kind left right own) := by
  intro stack free
  -- Only the right side is read with the join on the stack, so it is the one that needs brackets.
  obtain ⟨leftPlace, leftRan, leftWhole⟩ := leftSpells stack free
  obtain ⟨rightPlace, rightRan, rightWhole⟩ := rightSpells (.joining kind left :: stack)
  refine ⟨.condition kind left right 0 own, ?_, rfl⟩
  have begins : (JoinReader.mk stack leftPlace).step (Lexeme.ofJoinKind kind) =
      some ⟨stack, .begun kind left⟩ := by
    rw [step_complete stack leftWhole (.inr (by cases kind <;> decide))]
    cases stack with
    | nil => cases kind <;> rfl
    | cons opening stack =>
        cases opening with
        | bracket => cases kind <;> rfl
        | joining => cases free
  have joins : (JoinReader.mk stack (.begun kind left)).step (.word "JOIN") =
      some ⟨.joining kind left :: stack, .operand⟩ := rfl
  have on : Lexeme.isJoin (.word "ON") = true := by decide
  have asks := step_complete (.joining kind left :: stack) rightWhole (.inr on)
  rw [run_append leftRan, run_cons begins, run_cons joins, run_append rightRan, run_cons asks]
  exact run_condition plain closed

end Sql

open Sql Scanner

namespace BuiltinDialect

variable (d : BuiltinDialect)

/-- The tree of joins that a FROM clause is read as.  A comment would hide a part of it. -/
def joinTree? (sql : String) : Option JoinTree :=
  if d.hasComment sql then none
  else (d.lexemes? sql).bind fun lexemes =>
    ((JoinReader.mk [] .operand).run lexemes).bind JoinReader.tree?

/-- The text is read as a tree, whatever is open to its left. -/
def WritesOperand (sql : String) (tree : JoinTree) : Prop :=
  ∃ lexemes, d.lexemes? sql = some lexemes ∧ SpellsOperand lexemes tree

/-- The text is read as a tree where no join waits for its right side. -/
def Writes (sql : String) (tree : JoinTree) : Prop :=
  ∃ lexemes, d.lexemes? sql = some lexemes ∧ SpellsTree lexemes tree

variable {d} {sql first second : String} {tree left right : JoinTree}
variable {own : List Lexeme}

theorem Writes.joinTree?_eq (writes : d.Writes sql tree) (uncommented : d.hasComment sql = false) :
    d.joinTree? sql = some tree := by
  obtain ⟨lexemes, found, spells⟩ := writes
  obtain ⟨place, ran, whole⟩ := spells [] rfl
  rw [joinTree?, uncommented, if_neg Bool.false_ne_true, found, Option.bind_some, ran]
  exact whole

theorem WritesOperand.writes (writes : d.WritesOperand sql tree) : d.Writes sql tree :=
  writes.imp fun _ => And.imp_right SpellsOperand.spells

theorem writes_table (name : String) :
    d.WritesOperand (d.dialect.quoteName name) (.table name name) :=
  ⟨_, lexemes?_quoteName name, spells_table name⟩

theorem writes_renamed (name label : String) :
    d.WritesOperand (d.dialect.quoteName name ++ " AS " ++ d.dialect.quoteName label)
      (.table name label) := by
  have closed : idle.run d " AS ".toList = some ([.word "AS"], idle) := by cases d <;> rfl
  rw [String.append_assoc]
  exact ⟨_, lexemes?_beside (lexemes?_quoteName name) (separated_of_head rfl rfl) (by decide) closed
    (lexemes?_quoteName label), spells_renamed name label⟩

theorem Writes.bracketed (writes : d.Writes sql tree) :
    d.WritesOperand (Text.bracketed sql) tree := by
  obtain ⟨lexemes, found, spells⟩ := writes
  have opens : idle.run d "(".toList = some ([.symbol '('], idle) := by cases d <;> rfl
  exact ⟨_, lexemes?_enclosed opens found, spells.bracketed⟩

/-- The text of a join is read as its two sides and its condition. -/
theorem Writes.join (leftWrites : d.Writes first left) (kind : JoinKind)
    (rightWrites : d.WritesOperand second right) (condition : d.lexemes? sql = some own)
    (plain : ∀ lexeme ∈ own, lexeme.isJoin = false) (closed : level 0 own = some 0) :
    d.Writes (spaced [first, kind.keyword, second, "ON", sql]) (.join kind left right own) := by
  obtain ⟨leftLexemes, leftFound, leftSpells⟩ := leftWrites
  obtain ⟨rightLexemes, rightFound, rightSpells⟩ := rightWrites
  have keyword : idle.run d (" " ++ kind.keyword ++ " ").toList =
      some ([Lexeme.ofJoinKind kind, .word "JOIN"], idle) := by
    cases kind <;> cases d <;> rfl
  have separated : Separated (" " ++ kind.keyword ++ " ") := by
    cases kind <;> exact separated_of_head rfl rfl
  have present : " " ++ kind.keyword ++ " " ≠ "" := by cases kind <;> decide
  have on : idle.run d (" " ++ "ON" ++ " ").toList = some ([.word "ON"], idle) := by
    cases d <;> rfl
  have rest := lexemes?_beside rightFound (separated_of_head rfl rfl) (by decide) on condition
  have whole := lexemes?_beside leftFound separated present keyword rest
  refine ⟨_, ?_, leftSpells.join rightSpells plain closed⟩
  simpa only [spaced, Text.join, String.append_assoc, List.cons_append, List.nil_append] using whole

/-- The join in brackets is the right side of the first one, which is the left side of the last. -/
example : ansi.joinTree?
    "\"a\" INNER JOIN (\"b\" LEFT JOIN \"c\" ON x) ON y RIGHT JOIN \"a\" AS \"d\" ON z" =
      some (.join .right
        (.join .inner (.table "a" "a")
          (.join .left (.table "b" "b") (.table "c" "c") [.word "x"]) [.word "y"])
        (.table "a" "d") [.word "z"]) := by
  decide +kernel

end BuiltinDialect

end RowQuery
