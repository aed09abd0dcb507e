import RowQuery.Proofs.Reach.Aggregate

/-!
# Places of lexemes

A lexeme of an SQL text stands in the operand of an aggregate, or outside of all of them.  A rule
tells what may stand in which place: no aggregate in the operand of another one, or no name outside
of operands.  What compiled expressions are put together with obeys such rules, so that they are
laws of expressions.
-/

namespace RowQuery

namespace Sql

def Lexeme.isName : Lexeme → Bool
  | name _ => true
  | word _ | text _ | symbol _ => false

theorem Lexeme.isAggregate_of_isFixed {lexeme : Lexeme} (fixed : lexeme.isFixed false = true) :
    lexeme.isAggregate = false := by
  cases lexeme with
  | word letters =>
      rw [Lexeme.isFixed, Bool.and_eq_true, Bool.false_or, Bool.not_eq_true'] at fixed
      simpa [isAggregate] using fixed.2
  | text | name | symbol => rfl

/-- Where a text has been read to. -/
inductive CallState
  | outside
  /-- Behind the name of an aggregate. -/
  | called
  /-- In the operand of an aggregate, at a depth in round brackets. -/
  | inside (depth : Nat)
  deriving DecidableEq

namespace CallState

def next : CallState → Lexeme → CallState
  | inside depth, lexeme => (lexeme.shift depth).elim outside inside
  | called, .symbol '(' => inside 0
  | _, lexeme => if lexeme.isAggregate then called else outside

def isInside : CallState → Bool
  | inside _ => true
  | outside | called => false

def run (s : CallState) (lexemes : List Lexeme) : CallState :=
  lexemes.foldl next s

/-- The lexemes, and whether each of them stands in the operand of an aggregate. -/
def placed : CallState → List Lexeme → List (Lexeme × Bool)
  | _, [] => []
  | s, lexeme :: rest => (lexeme, s.isInside) :: placed (s.next lexeme) rest

variable {s : CallState} {lexeme : Lexeme} {lexemes : List Lexeme}

theorem map_fst_placed (s : CallState) (lexemes : List Lexeme) :
    (s.placed lexemes).map Prod.fst = lexemes := by
  induction lexemes generalizing s with
  | nil => rfl
  | cons lexeme lexemes ih => rw [placed, List.map_cons, ih]

theorem placed_append (s : CallState) (first second : List Lexeme) :
    s.placed (first ++ second) = s.placed first ++ (s.run first).placed second := by
  induction first generalizing s with
  | nil => rfl
  | cons lexeme first ih =>
      rw [List.cons_append, placed, placed, ih, List.cons_append]
      rfl

theorem run_cons (s : CallState) (lexeme : Lexeme) (rest : List Lexeme) :
    s.run (lexeme :: rest) = (s.next lexeme).run rest :=
  rfl

theorem run_append (s : CallState) (first second : List Lexeme) :
    s.run (first ++ second) = (s.run first).run second :=
  List.foldl_append

theorem next_outside (plain : lexeme.isAggregate = false) : outside.next lexeme = outside := by
  rw [next, plain]
  · exact if_neg Bool.false_ne_true
  · nofun
  · nofun

theorem run_outside (plain : ∀ lexeme ∈ lexemes, lexeme.isAggregate = false) :
    outside.run lexemes = outside := by
  induction lexemes with
  | nil => rfl
  | cons lexeme lexemes ih =>
      rw [List.forall_mem_cons] at plain
      rw [run_cons, next_outside plain.1]
      exact ih plain.2

theorem placed_outside (plain : ∀ lexeme ∈ lexemes, lexeme.isAggregate = false) :
    outside.placed lexemes = lexemes.map fun lexeme => (lexeme, false) := by
  induction lexemes with
  | nil => rfl
  | cons lexeme lexemes ih =>
      rw [List.forall_mem_cons] at plain
      rw [placed, next_outside plain.1, ih plain.2]
      rfl

/-- An operand is left behind its last bracket only. -/
theorem run_inside {depth last : Nat} (closed : level depth lexemes = some last) :
    (inside depth).run lexemes = inside last := by
  induction lexemes generalizing depth with
  | nil =>
      obtain rfl := Option.some.inj closed
      rfl
  | cons lexeme lexemes ih =>
      rw [level, List.foldlM_cons] at closed
      obtain ⟨deeper, shifted, rest⟩ := Option.bind_eq_some_iff.1 closed
      rw [run_cons, next, shifted]
      exact ih rest

theorem placed_inside {depth last : Nat} (closed : level depth lexemes = some last) :
    (inside depth).placed lexemes = lexemes.map fun lexeme => (lexeme, true) := by
  induction lexemes generalizing depth with
  | nil => rfl
  | cons lexeme lexemes ih =>
      rw [level, List.foldlM_cons] at closed
      obtain ⟨deeper, shifted, rest⟩ := Option.bind_eq_some_iff.1 closed
      rw [placed, next, shifted, Option.elim_some, ih rest]
      rfl

end CallState

/-! ## Rules -/

/-- Which lexemes may stand in the operand of an aggregate, and which outside of all of them. -/
abbrev PlaceRule := Lexeme → Bool → Bool

/-- No aggregate stands in the operand of another one. -/
def apart : PlaceRule :=
  fun lexeme inside => !(lexeme.isAggregate && inside)

/-- Names stand in operands of aggregates only. -/
def collected : PlaceRule :=
  fun lexeme inside => !lexeme.isName || inside

/-- There is no aggregate. -/
def plain : PlaceRule :=
  fun lexeme _ => !lexeme.isAggregate

namespace PlaceRule

variable {rule : PlaceRule} {lexemes first second : List Lexeme}

/-- Outside of aggregates everything may stand that is none. -/
def IsOpen (rule : PlaceRule) : Prop :=
  ∀ lexeme : Lexeme, lexeme.isAggregate = false → rule lexeme false = true

/-- What stands in every expression may stand anywhere. -/
def AllowsFixed (rule : PlaceRule) : Prop :=
  ∀ (lexeme : Lexeme) (inside : Bool), lexeme.isFixed false = true → rule lexeme inside = true

theorem isOpen_apart : apart.IsOpen := by
  intro lexeme isNone
  simp [apart, isNone]

theorem isOpen_plain : plain.IsOpen := by
  intro lexeme isNone
  simp [plain, isNone]

theorem allowsFixed_apart : apart.AllowsFixed := by
  intro lexeme inside fixed
  simp [apart, Lexeme.isAggregate_of_isFixed fixed]

theorem allowsFixed_plain : plain.AllowsFixed := by
  intro lexeme _ fixed
  simp [plain, Lexeme.isAggregate_of_isFixed fixed]

theorem allowsFixed_collected : collected.AllowsFixed := by
  intro lexeme inside fixed
  cases lexeme with
  | name => cases fixed
  | word | text | symbol => rfl

/-- All lexemes stand where they may, and no operand is open in the end. -/
def Accepts (rule : PlaceRule) (lexemes : List Lexeme) : Prop :=
  (∀ place ∈ CallState.outside.placed lexemes, rule place.1 place.2 = true) ∧
    CallState.outside.run lexemes = .outside

theorem accepts_nil (rule : PlaceRule) : rule.Accepts [] :=
  ⟨nofun, rfl⟩

theorem Accepts.append (front : rule.Accepts first) (back : rule.Accepts second) :
    rule.Accepts (first ++ second) := by
  constructor
  · rw [CallState.placed_append, front.2]
    exact List.forall_mem_append.2 ⟨front.1, back.1⟩
  · rw [CallState.run_append, front.2]
    exact back.2

theorem accepts_of_plain (plain : ∀ lexeme ∈ lexemes, lexeme.isAggregate = false)
    (allowed : ∀ lexeme ∈ lexemes, rule lexeme false = true) : rule.Accepts lexemes := by
  refine ⟨?_, CallState.run_outside plain⟩
  rw [CallState.placed_outside plain, List.forall_mem_map]
  exact allowed

theorem AllowsFixed.accepts (allows : rule.AllowsFixed)
    (fixed : ∀ lexeme ∈ lexemes, lexeme.isFixed false = true) : rule.Accepts lexemes :=
  accepts_of_plain (fun lexeme member => Lexeme.isAggregate_of_isFixed (fixed lexeme member))
    fun lexeme member => allows lexeme false (fixed lexeme member)

/-- The call of an aggregate, with its operand between brackets. -/
theorem accepts_call {name : String} (isAggregate : Lexeme.isAggregateWord name = true)
    (closed : level 0 lexemes = some 0) (named : rule (.word name) false = true)
    (bracket : ∀ c inside, rule (.symbol c) inside = true)
    (allowed : ∀ lexeme ∈ lexemes, rule lexeme true = true) :
    rule.Accepts (.word name :: .symbol '(' :: (lexemes ++ [.symbol ')'])) := by
  have calls : CallState.outside.next (.word name) = .called := by
    simp [CallState.next, Lexeme.isAggregate, isAggregate]
  have opens : CallState.called.next (.symbol '(') = .inside 0 := rfl
  constructor
  · rw [CallState.placed, CallState.placed, calls, opens, CallState.placed_append,
      CallState.placed_inside closed, CallState.run_inside closed]
    refine List.forall_mem_cons.2 ⟨named, List.forall_mem_cons.2 ⟨bracket _ _, ?_⟩⟩
    refine List.forall_mem_append.2 ⟨List.forall_mem_map.2 allowed, ?_⟩
    exact List.forall_mem_singleton.2 (bracket _ _)
  · rw [CallState.run_cons, CallState.run_cons, calls, opens, CallState.run_append,
      CallState.run_inside closed]
    rfl

end PlaceRule

end Sql

open Sql

namespace BuiltinDialect

/-- The text can be read, and its lexemes stand where the rule wants them. -/
def Follows (d : BuiltinDialect) (rule : PlaceRule) (sql : String) : Prop :=
  (d.lexemes? sql).any (fun lexemes =>
    (CallState.outside.placed lexemes).all fun place => rule place.1 place.2) = true

instance (d : BuiltinDialect) (rule : PlaceRule) (sql : String) : Decidable (d.Follows rule sql) :=
  inferInstanceAs (Decidable (_ = true))

/-- The text follows a rule, also when something stands behind it. -/
def Accepts (d : BuiltinDialect) (rule : PlaceRule) (sql : String) : Prop :=
  ∃ lexemes, d.lexemes? sql = some lexemes ∧ rule.Accepts lexemes

variable {d : BuiltinDialect} {rule : PlaceRule} {sql text between : String}

theorem Accepts.follows (accepts : d.Accepts rule sql) : d.Follows rule sql := by
  obtain ⟨lexemes, found, placed, -⟩ := accepts
  simpa [Follows, found] using placed

theorem Accepts.append (front : d.Accepts rule sql) (separated : Separated text)
    (back : d.Accepts rule text) : d.Accepts rule (sql ++ text) := by
  obtain ⟨lexemes, found, accepts⟩ := front
  obtain ⟨later, found', accepts'⟩ := back
  exact ⟨lexemes ++ later, lexemes?_append_of_separated found separated found',
    accepts.append accepts'⟩

/-- What calls no aggregate follows a rule that allows everything outside of them. -/
theorem NoAggregate.accepts (calls : d.NoAggregate sql) (isOpen : rule.IsOpen) :
    d.Accepts rule sql := by
  obtain ⟨lexemes, found, each⟩ := noAggregate_iff.1 calls
  exact ⟨lexemes, found, PlaceRule.accepts_of_plain each fun lexeme member =>
    isOpen lexeme (each lexeme member)⟩

theorem Accepts.noAggregate (accepts : d.Accepts plain sql) : d.NoAggregate sql := by
  obtain ⟨lexemes, found, each, -⟩ := accepts
  refine noAggregate_iff.2 ⟨lexemes, found, fun lexeme member => ?_⟩
  rw [← CallState.map_fst_placed .outside lexemes] at member
  obtain ⟨place, among, rfl⟩ := List.mem_map.1 member
  simpa [plain] using each place among

/-! ## Laws -/

/-- Where the lexemes of an expression stand. -/
def placeLaw (d : BuiltinDialect) (rule : PlaceRule) (allows : rule.AllowsFixed) : d.Law where
  Reads _ depth text := ∃ lexemes, d.lexemes? text = some lexemes ∧ rule.Accepts lexemes ∧
    level depth lexemes = some 0
  weaken reads _ := reads
  opening {_ _ _ _ _} opened rest := by
    unfold opened? at opened
    split at opened
    · rename_i lexemes ran
      split at opened
      · rename_i each
        obtain ⟨later, found, accepts, closed⟩ := rest
        exact ⟨lexemes ++ later, lexemes?_append_of_idle ran found,
          (allows.accepts (List.all_eq_true.1 each)).append accepts, level_append opened closed⟩
      · cases opened
    · cases opened
  operand {_ depth _ _} holds separated rest := by
    obtain ⟨lexemes, found, accepts, closed⟩ := holds
    obtain ⟨later, found', accepts', closed'⟩ := rest
    exact ⟨lexemes ++ later, lexemes?_append_of_separated found separated found',
      accepts.append accepts', level_append (level_add closed depth) closed'⟩
  closing {_ _ _} closes := by
    unfold BuiltinDialect.closes at closes
    split at closes
    · rename_i lexemes found
      rw [Bool.and_eq_true, List.all_eq_true, beq_iff_eq] at closes
      exact ⟨lexemes, found, allows.accepts closes.1, closes.2⟩
    · cases closes

variable {allows : rule.AllowsFixed} {aggregates : Bool}

theorem Law.Holds.accepts (holds : (d.placeLaw rule allows).Holds aggregates sql) :
    d.Accepts rule sql := by
  obtain ⟨lexemes, found, accepts, -⟩ := holds
  exact ⟨lexemes, found, accepts⟩

/-- Without aggregates everything stands outside of them. -/
theorem InReach.holds_place {reach : Reach} (inReach : d.InReach reach false sql)
    (isOpen : rule.IsOpen) : (d.placeLaw rule allows).Holds aggregates sql := by
  obtain ⟨lexemes, found, allowed, closed⟩ := inReach
  have each (lexeme : Lexeme) (member : lexeme ∈ lexemes) : lexeme.isAggregate = false :=
    (allowed lexeme member).isAggregate_eq
  exact ⟨lexemes, found, PlaceRule.accepts_of_plain each fun lexeme member =>
    isOpen lexeme (each lexeme member), closed⟩

theorem lexemes?_callText {name : String} (known : name ∈ aggregateNames) {lexemes : List Lexeme}
    (found : d.lexemes? sql = some lexemes) : d.lexemes? (callText name [sql]) =
      some (.word name :: .symbol '(' :: (lexemes ++ [.symbol ')'])) := by
  have front : Scanner.idle.run d (name ++ "(").toList =
      some ([.word name, .symbol '('], .idle) := by
    simp only [aggregateNames, List.mem_cons, List.not_mem_nil, or_false] at known
    rcases known with rfl | rfl | rfl | rfl | rfl <;> cases d <;> rfl
  exact lexemes?_enclosed front found

/-- The call of an aggregate obeys a rule, if everything in its operand may stand there. -/
theorem holds_aggregateCall {operands : List Fragment} (call : AggregateCall operands sql)
    (words : ∀ letters, rule (.word letters) false = true)
    (each : ∀ f ∈ operands, ∃ lexemes, d.lexemes? f.sql = some lexemes ∧
      level 0 lexemes = some 0 ∧ ∀ lexeme ∈ lexemes, rule lexeme true = true) :
    (d.placeLaw rule allows).Holds aggregates sql := by
  have bracket (c : Char) (inside : Bool) : rule (.symbol c) inside = true := allows _ _ rfl
  cases call with
  | rows =>
      have found : d.lexemes? "COUNT(*)" =
          some (.word "COUNT" :: .symbol '(' :: ([.symbol '*'] ++ [.symbol ')'])) := by
        cases d <;> rfl
      refine ⟨_, found, PlaceRule.accepts_call rfl rfl (words _) bracket ?_, rfl⟩
      exact List.forall_mem_singleton.2 (bracket _ _)
  | @operand name known f =>
      obtain ⟨lexemes, found, closed, inside⟩ := each f (by simp)
      have isAggregate : Lexeme.isAggregateWord name = true := by
        simp only [aggregateNames, List.mem_cons, List.not_mem_nil, or_false] at known
        rcases known with rfl | rfl | rfl | rfl | rfl <;> rfl
      have back : level 1 (lexemes ++ [.symbol ')']) = some 0 :=
        level_append (level_add closed 1) rfl
      exact ⟨_, lexemes?_callText known found,
        PlaceRule.accepts_call isAggregate closed (words _) bracket inside, back⟩

end BuiltinDialect

end RowQuery
