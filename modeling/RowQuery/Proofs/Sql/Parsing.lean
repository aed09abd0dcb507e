import Mathlib.Data.List.Basic
import RowQuery.Proofs.Sql.Expression

/-!
# Reading SQL by precedence

An operator precedence parser on tokens.  What is still open stands on a stack of
frames; an operator closes the frames that bind at least as strongly as itself, so
that operators of one power join from the left.  OR binds most weakly, then AND, NOT,
the comparisons with IS and IN, sums, products, and the sign.
-/

namespace RowQuery.Sql

/-- The tokens of conditions. -/
inductive Token where
  | number (n : Nat)
  | name (path : List String)
  | truth (b : Bool)
  | null
  | or
  | and
  | not
  | is
  | within
  | compare (op : Comparison)
  | plus
  | minus
  | star
  | percent
  | opening
  | closing
  | comma
  deriving DecidableEq

/-- The binary operators. -/
inductive Operator where
  | or
  | and
  | compare (op : Comparison)
  | integer (op : IntegerOperator)

namespace Operator

/-- The power of comparisons, IS and IN. -/
def comparisonPower : Nat := 4

/-- How strongly an operator binds. -/
def power : Operator → Nat
  | or => 1
  | and => 2
  | compare _ => comparisonPower
  | integer .plus | integer .minus => 5
  | integer .times | integer .percent => 6

/-- The expression of an operator. -/
def apply : Operator → Expression → Expression → Expression
  | or, l, r => .or l r
  | and, l, r => .and l r
  | compare op, l, r => .compare l op r
  | integer op, l, r => .integer l op r

/-- The operator of a token behind an operand. -/
def ofToken? : Token → Option Operator
  | .or => some or
  | .and => some and
  | .compare op => some (compare op)
  | .plus => some (integer .plus)
  | .minus => some (integer .minus)
  | .star => some (integer .times)
  | .percent => some (integer .percent)
  | _ => none

/-- The token of an operator. -/
def token : Operator → Token
  | or => .or
  | and => .and
  | compare op => .compare op
  | integer .plus => .plus
  | integer .minus => .minus
  | integer .times => .star
  | integer .percent => .percent

@[simp]
theorem ofToken?_token (op : Operator) : ofToken? op.token = some op := by
  rcases op with _ | _ | op | (_ | _ | _ | _) <;> rfl

theorem power_pos (op : Operator) : 0 < op.power := by
  rcases op with _ | _ | op | (_ | _ | _ | _) <;> exact Nat.succ_pos _

end Operator

/-- What is open. -/
inductive Frame where
  | bracket
  /-- The list of a membership test with the members before the current one. -/
  | members (item : Expression) (negated : Bool) (before : List Expression)
  | negative
  | not
  | operation (op : Operator) (l : Expression)

namespace Frame

/-- How strongly an open part binds; brackets are closed by brackets only. -/
def power : Frame → Nat
  | bracket | members .. => 0
  | not => 3
  | negative => 7
  | operation op _ => op.power

/-- The expression of a part when it is closed. -/
def complete : Frame → Expression → Expression
  | bracket, e | members .., e => e
  | negative, e => .negative e
  | not, e => .not e
  | operation op l, e => op.apply l e

end Frame

/-- Close all parts on top that bind at least as strongly. -/
def reduce (power : Nat) : List Frame → Expression → List Frame × Expression
  | [], e => ([], e)
  | frame :: frames, e =>
      if power ≤ frame.power then reduce power frames (frame.complete e)
      else (frame :: frames, e)

/-- The parser between two tokens. -/
inductive Parser where
  /-- An operand has to follow. -/
  | operand (frames : List Frame)
  | complete (frames : List Frame) (e : Expression)
  /-- Behind IS or IS NOT. -/
  | is (frames : List Frame) (e : Expression) (negated : Bool)
  /-- Behind the NOT of NOT IN. -/
  | not (frames : List Frame) (e : Expression)
  /-- Behind IN. -/
  | within (frames : List Frame) (e : Expression) (negated : Bool)

namespace Parser

/-- A token where an operand has to follow. -/
def begin (frames : List Frame) : Token → Option Parser
  | .number n => some (complete frames (.number n))
  | .name path => some (complete frames (.column path))
  | .truth b => some (complete frames (.truth b))
  | .null => some (complete frames .null)
  | .opening => some (operand (.bracket :: frames))
  | .minus => some (operand (.negative :: frames))
  | .not => some (operand (.not :: frames))
  | _ => none

/-- A closing bracket. -/
def close : List Frame × Expression → Option Parser
  | (.bracket :: frames, e) => some (complete frames e)
  | (.members item negated before :: frames, e) =>
      some (complete frames (.among item negated (before ++ [e])))
  | _ => none

/-- A comma. -/
def separate : List Frame × Expression → Option Parser
  | (.members item negated before :: frames, e) =>
      some (operand (.members item negated (before ++ [e]) :: frames))
  | _ => none

/-- A token behind a complete expression. -/
def proceed (frames : List Frame) (e : Expression) (token : Token) : Option Parser :=
  match Operator.ofToken? token with
  | some op =>
      let (frames, e) := reduce op.power frames e
      some (operand (.operation op e :: frames))
  | none =>
      let (outer, item) := reduce Operator.comparisonPower frames e
      match token with
      | .is => some (is outer item false)
      | .not => some (not outer item)
      | .within => some (within outer item false)
      | .closing => close (reduce 1 frames e)
      | .comma => separate (reduce 1 frames e)
      | _ => none

/-- The next token. -/
def feed : Parser → Token → Option Parser
  | operand frames, token => begin frames token
  | complete frames e, token => proceed frames e token
  | is frames e false, .not => some (is frames e true)
  | is frames e negated, .null => some (complete frames (.isNull e negated))
  | not frames e, .within => some (within frames e true)
  | within frames e negated, .opening => some (operand (.members e negated [] :: frames))
  | _, _ => none

/-- The expression that has been read. -/
def finish : Parser → Option Expression
  | complete frames e =>
      match reduce 1 frames e with
      | ([], e) => some e
      | _ => none
  | _ => none

end Parser

namespace Parser

/-- Some tokens one after the other. -/
def run (tokens : List Token) (parser : Parser) : Option Parser :=
  tokens.foldlM feed parser

variable {token : Token} {tokens : List Token} {before after : Parser}

theorem run_cons (first : feed before token = some after) :
    run (token :: tokens) before = run tokens after := by
  rw [run, List.foldlM_cons, first]
  rfl

theorem run_append {later : List Token} (first : run tokens before = some after) :
    run (tokens ++ later) before = run later after := by
  rw [run] at first
  rw [run, List.foldlM_append, first]
  rfl

theorem feed_operator (frames : List Frame) (e : Expression) (op : Operator) :
    feed (complete frames e) op.token =
      some (operand (.operation op (reduce op.power frames e).2 ::
        (reduce op.power frames e).1)) := by
  rw [feed, proceed, Operator.ofToken?_token]

end Parser

/-- The expression of some tokens. -/
def parseTokens (tokens : List Token) : Option Expression :=
  (Parser.run tokens (.operand [])).bind Parser.finish

/-- The power of what is never taken apart. -/
def atomPower : Nat := 8

/-- Nothing on top of the stack binds so strongly. -/
def Weaker (power : Nat) (frames : List Frame) : Prop :=
  ∀ frame ∈ frames.head?, frame.power < power

theorem weaker_cons {power : Nat} {frame : Frame} {frames : List Frame}
    (lt : frame.power < power) : Weaker power (frame :: frames) := by
  simpa [Weaker] using lt

theorem Weaker.reduce_eq {power : Nat} {frames : List Frame} (weaker : Weaker power frames)
    (e : Expression) : reduce power frames e = (frames, e) := by
  cases frames with
  | nil => rfl
  | cons frame frames =>
      have lt := weaker frame rfl
      rw [reduce, if_neg (Nat.not_le_of_lt lt)]

/-- Tokens that read as an expression wherever weaker parts are open: when they have
been read, closing parts is like closing parts around the expression. -/
def Spells (power : Nat) (tokens : List Token) (e : Expression) : Prop :=
  ∀ frames, Weaker power frames →
    ∃ frames' e', Parser.run tokens (.operand frames) = some (.complete frames' e') ∧
      ∀ p, 0 < p → p ≤ power → reduce p frames' e' = reduce p frames e

namespace Spells

variable {power : Nat} {tokens : List Token} {e : Expression}

theorem mono (spells : Spells power tokens e) {less : Nat} (le : less ≤ power) :
    Spells less tokens e := by
  intro frames weaker
  obtain ⟨frames', e', read, reduced⟩ :=
    spells frames fun frame top => Nat.lt_of_lt_of_le (weaker frame top) le
  exact ⟨frames', e', read, fun p positive bound => reduced p positive (Nat.le_trans bound le)⟩

/-- What was open stays open when the expression is closed by its own power. -/
theorem run_eq (spells : Spells power tokens e) {frames : List Frame}
    (weaker : Weaker power frames) {p : Nat} (positive : 0 < p) (bound : p ≤ power)
    (low : Weaker p frames) :
    ∃ frames' e', Parser.run tokens (.operand frames) = some (.complete frames' e') ∧
      reduce p frames' e' = (frames, e) := by
  obtain ⟨frames', e', read, reduced⟩ := spells frames weaker
  exact ⟨frames', e', read, (reduced p positive bound).trans (low.reduce_eq e)⟩

theorem parseTokens_eq (spells : Spells power tokens e) (positive : 0 < power) :
    parseTokens tokens = some e := by
  have weaker : ∀ p, Weaker p [] := fun _ _ top => by cases top
  obtain ⟨frames, e', read, reduced⟩ :=
    spells.run_eq (weaker power) Nat.one_pos positive (weaker 1)
  rw [parseTokens, read, Option.bind_some, Parser.finish, reduced]

theorem atom {token : Token}
    (begins : ∀ frames, Parser.begin frames token = some (.complete frames e)) :
    Spells power [token] e :=
  fun frames _ => ⟨frames, e, Parser.run_cons (begins frames), fun _ _ _ => rfl⟩

/-- Brackets protect what is inside. -/
theorem bracketed (spells : Spells power tokens e) (positive : 0 < power) (outer : Nat) :
    Spells outer (.opening :: (tokens ++ [.closing])) e := by
  intro frames _
  have weaker : Weaker power (.bracket :: frames) := weaker_cons positive
  obtain ⟨frames', e', read, reduced⟩ :=
    spells.run_eq weaker Nat.one_pos positive (weaker_cons Nat.one_pos)
  have closed : Parser.feed (.complete frames' e') .closing = some (.complete frames e) := by
    change Parser.close (reduce 1 frames' e') = _
    rw [reduced]
    rfl
  refine ⟨frames, e, ?_, fun _ _ _ => rfl⟩
  rw [Parser.run_cons rfl, Parser.run_append read, Parser.run_cons closed]
  rfl

/-- An operator joins what binds at least as strongly on its left and more strongly on
its right. -/
theorem operation {op : Operator} {ls rs : List Token} {l r : Expression}
    (left : Spells op.power ls l) (right : Spells (op.power + 1) rs r) :
    Spells op.power (ls ++ op.token :: rs) (op.apply l r) := by
  intro frames weaker
  obtain ⟨frames₁, l', readLeft, reducedLeft⟩ :=
    left.run_eq weaker op.power_pos (Nat.le_refl _) weaker
  obtain ⟨frames₂, r', readRight, reducedRight⟩ :=
    right (.operation op l :: frames) (weaker_cons (Nat.lt_succ_self _))
  refine ⟨frames₂, r', ?_, fun p positive bound => ?_⟩
  · rw [Parser.run_append readLeft, Parser.run_cons (Parser.feed_operator _ _ _), reducedLeft]
    exact readRight
  · rw [reducedRight p positive (Nat.le_succ_of_le bound), reduce, Frame.power, if_pos bound,
      Frame.complete]

/-- Operators of one power join from the left. -/
theorem chain {op : Operator} {first : List Token} {texts : List (List Token)}
    {es : List Expression} (left : Spells op.power first e)
    (each : List.Forall₂ (Spells (op.power + 1)) texts es) :
    Spells op.power (first ++ texts.flatMap (op.token :: ·)) (es.foldl op.apply e) := by
  induction each generalizing first e with
  | nil => simpa using left
  | cons head _ ih =>
      have whole := ih (left.operation head)
      simpa [List.append_assoc] using whole

/-- A sign or NOT stands before what binds more strongly. -/
theorem prefixed {token : Token} (frame : Frame)
    (begins : ∀ frames, Parser.begin frames token = some (.operand (frame :: frames)))
    (spells : Spells power tokens e) (stronger : frame.power < power) :
    Spells frame.power (token :: tokens) (frame.complete e) := by
  intro frames _
  obtain ⟨frames', e', read, reduced⟩ := spells (frame :: frames) (weaker_cons stronger)
  refine ⟨frames', e', ?_, fun p positive bound => ?_⟩
  · have fed : Parser.feed (.operand frames) token = some (.operand (frame :: frames)) :=
      begins frames
    rw [Parser.run_cons fed, read]
  · rw [reduced p positive (by omega), reduce, if_pos bound]

/-- Behind an expression that binds more strongly than comparisons the parser goes on with
the expression alone. -/
theorem run_proceed (spells : Spells power tokens e) {frames : List Frame}
    (stronger : Operator.comparisonPower < power)
    (weaker : Weaker Operator.comparisonPower frames) {token : Token} (parser : Parser)
    (proceeds : ∀ frames' e', reduce Operator.comparisonPower frames' e' = (frames, e) →
      Parser.feed (.complete frames' e') token = some parser) (later : List Token) :
    Parser.run (tokens ++ token :: later) (.operand frames) = Parser.run later parser := by
  obtain ⟨frames', e', read, reduced⟩ := spells.run_eq
    (fun frame top => Nat.lt_trans (weaker frame top) stronger) (by decide) (Nat.le_of_lt stronger)
    weaker
  rw [Parser.run_append read, Parser.run_cons (proceeds _ _ reduced)]

/-- A test for NULL. -/
theorem isNull (spells : Spells power tokens e) (stronger : Operator.comparisonPower < power)
    (negated : Bool) :
    Spells Operator.comparisonPower
      (tokens ++ .is :: ((if negated then [.not] else []) ++ [.null])) (.isNull e negated) := by
  intro frames weaker
  refine ⟨frames, .isNull e negated, ?_, fun _ _ _ => rfl⟩
  rw [spells.run_proceed stronger weaker (.is frames e false)]
  · cases negated <;> rfl
  · intro frames' e' reduced
    simp [Parser.feed, Parser.proceed, Operator.ofToken?, reduced]

/-- The members of a list with commas between them. -/
def memberTokens : List (List Token) → List Token
  | [] => []
  | [tokens] => tokens
  | tokens :: more => tokens ++ .comma :: memberTokens more

theorem run_members (item : Expression) (negated : Bool) (frames : List Frame)
    {texts : List (List Token)} {members : List Expression}
    (spells : List.Forall₂ (Spells power) texts members) (positive : 0 < power)
    (nonempty : texts ≠ []) :
    ∀ before : List Expression,
      Parser.run (memberTokens texts ++ [.closing])
        (.operand (.members item negated before :: frames)) =
          some (.complete frames (.among item negated (before ++ members))) := by
  induction spells with
  | nil => exact absurd rfl nonempty
  | @cons text member texts members head tail ih =>
      intro before
      have weaker : Weaker power (.members item negated before :: frames) := weaker_cons positive
      obtain ⟨frames', e', read, reduced⟩ :=
        head.run_eq weaker Nat.one_pos positive (weaker_cons Nat.one_pos)
      cases tail with
      | nil =>
          rw [memberTokens, Parser.run_append read]
          have closed : Parser.feed (.complete frames' e') .closing =
              some (.complete frames (.among item negated (before ++ [member]))) := by
            change Parser.close (reduce 1 frames' e') = _
            rw [reduced]
            rfl
          rw [Parser.run_cons closed]
          rfl
      | @cons text' member' texts members head' tail =>
          have separated : Parser.feed (.complete frames' e') .comma =
              some (.operand (.members item negated (before ++ [member]) :: frames)) := by
            change Parser.separate (reduce 1 frames' e') = _
            rw [reduced]
            rfl
          rw [memberTokens, List.append_assoc, Parser.run_append read, List.cons_append,
            Parser.run_cons separated, ih (by simp), List.append_assoc]
          · rfl
          · simp

/-- A membership test. -/
theorem among (spells : Spells power tokens e) (stronger : Operator.comparisonPower < power)
    (negated : Bool) {texts : List (List Token)} {members : List Expression}
    (each : List.Forall₂ (Spells power) texts members) (nonempty : texts ≠ []) :
    Spells Operator.comparisonPower
      (tokens ++ ((if negated then [.not] else []) ++
        .within :: .opening :: (memberTokens texts ++ [.closing])))
      (.among e negated members) := by
  intro frames weaker
  refine ⟨frames, .among e negated members, ?_, fun _ _ _ => rfl⟩
  have listed := run_members e negated frames each (by omega) nonempty []
  cases negated with
  | false =>
      rw [if_neg Bool.false_ne_true, List.nil_append,
        spells.run_proceed stronger weaker (.within frames e false)]
      · exact listed
      · intro frames' e' reduced
        simp [Parser.feed, Parser.proceed, Operator.ofToken?, reduced]
  | true =>
      rw [if_pos rfl, List.singleton_append,
        spells.run_proceed stronger weaker (.not frames e)]
      · exact listed
      · intro frames' e' reduced
        simp [Parser.feed, Parser.proceed, Operator.ofToken?, reduced]

end Spells

end RowQuery.Sql
