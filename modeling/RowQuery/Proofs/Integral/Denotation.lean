import RowQuery.Proofs.Integral.Value

/-!
# Expressions that denote terms

An SQL expression denotes a term if it has the value of the term on every row on which
the term has one.  For each operator on integers and truth values there is an expression
that denotes it when its operands are denoted.  The two sides treat NULL in different
ways: for the evaluator of terms a NULL from a row is unknown and a NULL literal is a
value to test for.
-/

namespace RowQuery

open RowQuery.Sql

/-- An expression has the value of a term on every row on which the term has one. -/
def Sql.Expression.Denotes (c : CompileContext) (e : Expression) (t : Term) : Prop :=
  ∀ scope env v, c.Mirrors scope env → t.eval scope = .ok v → e.eval env = v.number?

/-- An expression is true, false or unknown as a term is in the place of a condition. -/
def Sql.Expression.Decides (c : CompileContext) (e : Expression) (t : Term) : Prop :=
  ∀ scope env v, c.Mirrors scope env → t.eval scope = .ok v →
    e.eval env = Number.ofTruth v.truth

/-- The values of a term are NULL or of one kind. -/
def Term.Typed (c : CompileContext) (t : Term) (k : Kind) : Prop :=
  ∀ scope env v, c.Mirrors scope env → t.eval scope = .ok v → v = .null ∨ v.kind = k

/-- A term on integers and truth values that is no NULL literal. -/
structure Term.Regular (c : CompileContext) (t : Term) : Prop where
  integral : ∃ n, Term.Integral c n t
  notNull : ¬ Term.Literal c t .null

namespace Sql.Number

theorem compare_swapped (op : Comparison) (x y : Number) :
    compare op.swapped y x = compare op x y := by
  cases x with
  | none => cases y <;> rfl
  | some a =>
      cases y with
      | none => rfl
      | some b =>
          rw [compare, compare, ← Int.compare_swap, ← Comparison.holds_swapped op]
          rfl

theorem compare_none (op : Comparison) (x : Number) : compare op x none = none := by
  cases x <;> rfl

end Sql.Number

namespace Value

theorem number?_ofTruth (t : Truth) : (ofTruth t).number? = Number.ofTruth t := by
  rcases t with _ | _ | _ <;> rfl

theorem typed_ofTruth (t : Truth) : ofTruth t = .null ∨ (ofTruth t).kind = .bool := by
  rcases t with _ | _
  · exact .inl rfl
  · exact .inr rfl

theorem eq_ofTruth {v : Value} (result : v.kind = .bool ∨ v = .null) : v = ofTruth v.truth := by
  rcases result with kind | rfl
  · cases v with
    | bool b => rfl
    | _ => cases kind
  · rfl

theorem negation_eq_ofTruth (v : Value) : Term.negation v = ofTruth v.truth.not := by
  cases v <;> rfl

/-- The equality of integers and truth values is never left open. -/
theorem compare_eq_number? {a v : Value} (integral : a.kind.isIntegral = true)
    (same : v.kind = a.kind) :
    Number.compare .eq a.number? v.number? = .ofSearch (v.looseEq a) false := by
  have equal : v.looseEq a = Comparison.eq.holds (v.compare? a) := by
    cases a with
    | int i | bool b => cases v <;> rfl
    | _ => cases integral
  rw [← Number.compare_swapped, Comparison.swapped, compare_number? _ (same ▸ integral) same.symm,
    equal]
  cases Comparison.eq.holds (v.compare? a) <;> rfl

/-- A comparison with NULL asks whether the other side is NULL too. -/
theorem compareBy_null {op : Comparison} (equality : op.isEquality = true) (v : Value) :
    null.compareBy op v = .ok (v.isNull != decide (op = .ne)) ∧
      v.compareBy op null = .ok (v.isNull != decide (op = .ne)) := by
  have answer : (v.isNull == decide (op = .eq)) = (v.isNull != decide (op = .ne)) := by
    cases op with
    | eq | ne => cases v.isNull <;> rfl
    | _ => cases equality
  have isNull : null.isNull = true := rfl
  constructor
  · rw [compareBy, isNull, Bool.true_or, if_pos rfl, compareNull, if_pos equality, isNull,
      Bool.true_and, answer]
  · rw [compareBy, isNull, Bool.or_true, if_pos rfl, compareNull, if_pos equality, isNull,
      Bool.and_true, answer]

end Value

namespace Term

variable {c : CompileContext} {scope : Scope} {env : Expression.Environment} {t : Term} {v : Value}

/-- Where NULL is not asked for there is no NULL literal. -/
theorem Integral.not_null (integral : Integral c false t) : ¬ Literal c t .null := by
  intro null
  cases integral with
  | literal literal kind =>
      obtain rfl := literal.unique null
      cases kind
  | _ => cases null

theorem Integral.regular (integral : Integral c false t) : t.Regular c :=
  ⟨⟨false, integral⟩, integral.not_null⟩

/-- What is not a NULL literal is NULL only when it is unknown. -/
theorem Regular.value (regular : t.Regular c) (mirrors : c.Mirrors scope env)
    (evaluated : t.eval scope = .ok v) :
    (v = .null ∧ isUnknown t v = true ∨ v.kind.isIntegral = true ∧ isUnknown t v = false) ∧
      isLiteralNull t v = false := by
  obtain ⟨n, integral⟩ := regular.integral
  have yields := integral.yields mirrors evaluated
  rcases yields.number with rfl | kind
  · rcases yields.origin rfl with reads | ⟨-, literal⟩
    · exact ⟨.inl ⟨rfl, by simp [isUnknown, Value.isNull, reads]⟩, by simp [isLiteralNull, reads]⟩
    · exact absurd literal regular.notNull
  · have isNull := Value.isNull_of_integral kind
    exact ⟨.inr ⟨kind, by simp [isUnknown, isNull]⟩, by simp [isLiteralNull, isNull]⟩

theorem Regular.kind (regular : t.Regular c) (mirrors : c.Mirrors scope env)
    (evaluated : t.eval scope = .ok v) (known : ¬ isUnknown t v = true) :
    v.kind.isIntegral = true := by
  rcases (regular.value mirrors evaluated).1 with ⟨-, unknown⟩ | ⟨kind, -⟩
  · exact absurd unknown known
  · exact kind

theorem Regular.isNone_number? (regular : t.Regular c) (mirrors : c.Mirrors scope env)
    (evaluated : t.eval scope = .ok v) : v.number?.isNone = v.isNull := by
  rcases (regular.value mirrors evaluated).1 with ⟨rfl, -⟩ | ⟨kind, -⟩
  · rfl
  · cases v <;> first | rfl | cases kind

theorem negateIf_ofTruth (negated : Bool) (t : Truth) :
    negateIf negated (.ofTruth t) = .ofTruth (if negated then t.not else t) := by
  rcases t with _ | _ | _ <;> cases negated <;> rfl

/-- The answer of a membership test: for an unknown item only a NULL literal counts. -/
theorem amongMembers_eq (unknown : Bool) (item : Value) (members : List (Value × Bool)) :
    amongMembers unknown item members =
      .ofTruth (
        if unknown then
          if members.any fun (v, ofRow) => v.isNull && !ofRow then some true else none
        else
          .ofSearch (members.any fun (v, _) => v.looseEq item)
            (members.any fun (v, ofRow) => v.isNull && ofRow)) := by
  unfold amongMembers Truth.ofSearch
  repeat' split
  all_goals rfl

theorem Literal.isLiteralNull_eq (literal : Literal c t .null) :
    isUnknown t .null = false ∧ isLiteralNull t .null = true := by
  simp [isUnknown, isLiteralNull, Value.isNull, literal.readsRow]

end Term

namespace Term

/-! The kinds of the values of compound terms. -/

variable {c : CompileContext} {l r t : Term}

theorem typed_arithmetic {op : Arithmetic} (noQuotient : op ≠ .div) (left : l.Regular c)
    (right : r.Regular c) : (arithmetic l op r).Typed c .int := by
  intro scope env v mirrors evaluated
  rw [eval] at evaluated
  obtain ⟨x, leftEq, rest⟩ := Except.bind_eq_ok_iff.1 evaluated
  split at rest
  · exact .inl (Except.ok.inj rest).symm
  · rename_i leftKnown
    obtain ⟨y, rightEq, rest⟩ := Except.bind_eq_ok_iff.1 rest
    split at rest
    · exact .inl (Except.ok.inj rest).symm
    · rename_i rightKnown
      obtain ⟨-, -, k, -, -, rfl, -⟩ := Value.arithmetic_eq_ok
        (left.kind mirrors leftEq leftKnown) (right.kind mirrors rightEq rightKnown) noQuotient rest
      exact .inr rfl

theorem typed_negate (operand : t.Regular c) : (negate t).Typed c .int := by
  intro scope env v mirrors evaluated
  rw [eval] at evaluated
  obtain ⟨x, innerEq, rest⟩ := Except.bind_eq_ok_iff.1 evaluated
  split at rest
  · exact .inl (Except.ok.inj rest).symm
  · rename_i known
    obtain ⟨-, k, -, rfl, -⟩ := Value.negate_eq_ok (operand.kind mirrors innerEq known) rest
    exact .inr rfl

theorem typed_compare (op : Comparison) : (compare l op r).Typed c .bool := by
  intro scope env v mirrors evaluated
  rw [eval] at evaluated
  obtain ⟨x, -, rest⟩ := Except.bind_eq_ok_iff.1 evaluated
  obtain ⟨y, -, rest⟩ := Except.bind_eq_ok_iff.1 rest
  rw [compareValues] at rest
  split at rest
  · exact .inl (Except.ok.inj rest).symm
  · exact .inr (kind_of_map_bool rest)

theorem typed_member {item collection : Term} {members : List Term}
    (lists : Lists c collection members) (negated : Bool) :
    (member item collection negated).Typed c .bool := by
  intro scope env v mirrors evaluated
  obtain ⟨a, vs, -, -, rfl⟩ := lists.eval_member mirrors.arguments evaluated
  rw [amongMembers_eq, negateIf_ofTruth]
  exact Value.typed_ofTruth _

theorem typed_not : (not t).Typed c .bool := by
  intro scope env v mirrors evaluated
  rw [eval] at evaluated
  obtain ⟨x, -, ended⟩ := Except.bind_eq_ok_iff.1 evaluated
  obtain rfl := Except.ok.inj ended
  rw [Value.negation_eq_ofTruth]
  exact Value.typed_ofTruth _

theorem typed_all (items : List Term) : (all items).Typed c .bool := by
  intro scope env v mirrors evaluated
  rw [eval] at evaluated
  exact ((evalAll_result evaluated).imp_right And.left).symm

theorem typed_any (items : List Term) : (any items).Typed c .bool := by
  intro scope env v mirrors evaluated
  rw [eval] at evaluated
  exact ((evalAny_result evaluated).imp_right And.left).symm

end Term

namespace Arithmetic

/-- The expression of an operator on integers.  SQL gives remainders the sign of the
dividend, so that one with the sign of the divisor takes two of them. -/
def expression (op : Arithmetic) (a b : Expression) : Expression :=
  match op with
  | add => .integer a .plus b
  | sub => .integer a .minus b
  | mul => .integer a .times b
  | div => .null
  | mod => .integer (.integer (.integer a .percent b) .plus b) .percent b

variable {op : Arithmetic} {a b : Expression} {env : Expression.Environment}

theorem eval_expression_left (null : a.eval env = none) : (op.expression a b).eval env = none := by
  cases op <;> simp [expression, Expression.eval, null]

theorem eval_expression_right (null : b.eval env = none) : (op.expression a b).eval env = none := by
  cases op <;> simp [expression, Expression.eval, null]

theorem tmod_tmod_add (a : Int) {b : Int} (nonzero : b ≠ 0) :
    Int.tmod (Int.tmod a b + b) b = Int.fmod a b := by
  have same : (Int.tmod a b + b) % b = a % b := by
    rw [Int.add_emod_right]
    exact (Int.emod_eq_emod_iff_emod_sub_eq_zero.2
      (Int.emod_eq_zero_of_dvd Int.dvd_self_sub_tmod)).symm
  have divides : b ∣ Int.tmod a b + b ↔ b ∣ a := by
    rw [Int.dvd_iff_emod_eq_zero, same, ← Int.dvd_iff_emod_eq_zero]
  rw [Int.tmod_eq_emod, Int.fmod_eq_emod, same]
  rcases Int.lt_or_gt_of_ne nonzero with negative | positive
  · have bound : Int.tmod a b + b < 0 := by
      have below := Int.tmod_lt_of_pos a (b := -b) (by omega)
      rw [Int.tmod_neg] at below
      omega
    simp only [divides, Int.not_le.2 bound, Int.not_le.2 negative, false_or]
    split <;> omega
  · have bound : 0 ≤ Int.tmod a b + b := by
      have above := Int.lt_tmod_of_pos a positive
      omega
    simp [bound, Int.le_of_lt positive]

theorem eval_expression {x y z : Int} (left : a.eval env = some x) (right : b.eval env = some y)
    (result : op.onIntegers? x y = some z) : (op.expression a b).eval env = some z := by
  cases op with
  | add | sub | mul =>
      obtain rfl := Option.some.inj result
      simp [expression, Expression.eval, left, right, IntegerOperator.lift, IntegerOperator.apply]
  | div => cases result
  | mod =>
      rw [onIntegers?] at result
      split at result
      · cases result
      · rename_i nonzero
        obtain rfl := Option.some.inj result
        simp [expression, Expression.eval, left, right, IntegerOperator.lift,
          IntegerOperator.apply, nonzero, tmod_tmod_add]

end Arithmetic

namespace Sql.Expression.Denotes

variable {c : CompileContext} {a b e : Expression} {l r t : Term}

theorem arithmetic {op : Arithmetic} (noQuotient : op ≠ .div) (left : l.Regular c)
    (right : r.Regular c) (denotesLeft : a.Denotes c l) (denotesRight : b.Denotes c r) :
    (op.expression a b).Denotes c (.arithmetic l op r) := by
  intro scope env v mirrors evaluated
  rw [Term.eval] at evaluated
  obtain ⟨x, leftEq, rest⟩ := Except.bind_eq_ok_iff.1 evaluated
  have leftValue := denotesLeft _ _ _ mirrors leftEq
  rcases (left.value mirrors leftEq).1 with ⟨rfl, unknown⟩ | ⟨kindLeft, known⟩
  · rw [if_pos unknown] at rest
    obtain rfl := Except.ok.inj rest
    exact Arithmetic.eval_expression_left leftValue
  · rw [known, if_neg Bool.false_ne_true] at rest
    obtain ⟨y, rightEq, rest⟩ := Except.bind_eq_ok_iff.1 rest
    have rightValue := denotesRight _ _ _ mirrors rightEq
    rcases (right.value mirrors rightEq).1 with ⟨rfl, unknown⟩ | ⟨kindRight, known⟩
    · rw [if_pos unknown] at rest
      obtain rfl := Except.ok.inj rest
      exact Arithmetic.eval_expression_right rightValue
    · rw [known, if_neg Bool.false_ne_true] at rest
      obtain ⟨i, j, k, rfl, rfl, rfl, result⟩ :=
        Value.arithmetic_eq_ok kindLeft kindRight noQuotient rest
      exact Arithmetic.eval_expression leftValue rightValue result

theorem negative (operand : t.Regular c) (denotes : e.Denotes c t) :
    (negative e).Denotes c (.negate t) := by
  intro scope env v mirrors evaluated
  rw [Term.eval] at evaluated
  obtain ⟨x, innerEq, rest⟩ := Except.bind_eq_ok_iff.1 evaluated
  have value := denotes _ _ _ mirrors innerEq
  rw [eval, value]
  rcases (operand.value mirrors innerEq).1 with ⟨rfl, unknown⟩ | ⟨kind, known⟩
  · rw [if_pos unknown] at rest
    obtain rfl := Except.ok.inj rest
    rfl
  · rw [known, if_neg Bool.false_ne_true] at rest
    obtain ⟨i, k, rfl, rfl, same⟩ := Value.negate_eq_ok kind rest
    exact congrArg some same.symm

theorem compare {k : Kind} {op : Comparison} (left : l.Regular c) (right : r.Regular c)
    (typedLeft : l.Typed c k) (typedRight : r.Typed c k) (denotesLeft : a.Denotes c l)
    (denotesRight : b.Denotes c r) : (compare a op b).Denotes c (.compare l op r) := by
  intro scope env v mirrors evaluated
  rw [Term.eval] at evaluated
  obtain ⟨x, leftEq, rest⟩ := Except.bind_eq_ok_iff.1 evaluated
  obtain ⟨y, rightEq, rest⟩ := Except.bind_eq_ok_iff.1 rest
  obtain ⟨leftValue, leftNull⟩ := left.value mirrors leftEq
  obtain ⟨rightValue, rightNull⟩ := right.value mirrors rightEq
  rw [eval, denotesLeft _ _ _ mirrors leftEq, denotesRight _ _ _ mirrors rightEq]
  rw [Term.compareValues, leftNull, rightNull] at rest
  rcases leftValue with ⟨rfl, unknown⟩ | ⟨kindLeft, known⟩
  · rw [unknown] at rest
    obtain rfl := Except.ok.inj rest
    rfl
  · rcases rightValue with ⟨rfl, unknown⟩ | ⟨kindRight, known'⟩
    · rw [known, unknown] at rest
      obtain rfl := Except.ok.inj rest
      exact congrArg Number.ofTruth (Number.compare_none op _)
    · have same : y.kind = x.kind := by
        rcases typedLeft _ _ _ mirrors leftEq with rfl | sameLeft
        · cases kindLeft
        · rcases typedRight _ _ _ mirrors rightEq with rfl | sameRight
          · cases kindRight
          · rw [sameLeft, sameRight]
      rw [known, known'] at rest
      rw [Value.compare_number? op kindLeft same]
      rw [Value.compareBy_eq op kindLeft same] at rest
      obtain rfl := Except.ok.inj rest
      rfl

/-- A comparison with a NULL literal is a test for NULL. -/
theorem nullTest {op : Comparison} (equality : op.isEquality = true) (regular : t.Regular c)
    (null : Term.Literal c l .null) (denotes : e.Denotes c t) :
    (isNull e (op = .ne)).Denotes c (.compare l op t) ∧
      (isNull e (op = .ne)).Denotes c (.compare t op l) := by
  constructor
  all_goals
    intro scope env v mirrors evaluated
    rw [Term.eval] at evaluated
    obtain ⟨x, leftEq, rest⟩ := Except.bind_eq_ok_iff.1 evaluated
    obtain ⟨y, rightEq, rest⟩ := Except.bind_eq_ok_iff.1 rest
  · rw [null.eval_eq mirrors.arguments] at leftEq
    obtain rfl := Except.ok.inj leftEq
    rw [Term.compareValues, null.isLiteralNull_eq.2, Bool.true_or, Bool.not_true, Bool.false_and,
      if_neg Bool.false_ne_true, (Value.compareBy_null equality y).1] at rest
    obtain rfl := Except.ok.inj rest
    rw [eval, denotes _ _ _ mirrors rightEq, regular.isNone_number? mirrors rightEq]
    rfl
  · rw [null.eval_eq mirrors.arguments] at rightEq
    obtain rfl := Except.ok.inj rightEq
    rw [Term.compareValues, null.isLiteralNull_eq.2, Bool.or_true, Bool.not_true, Bool.false_and,
      if_neg Bool.false_ne_true, (Value.compareBy_null equality x).2] at rest
    obtain rfl := Except.ok.inj rest
    rw [eval, denotes _ _ _ mirrors leftEq, regular.isNone_number? mirrors leftEq]
    rfl

end Sql.Expression.Denotes

namespace Sql

namespace Number

theorem among_none (members : List Number) :
    among none members = if members.isEmpty then some false else none := by
  induction members with
  | nil => rfl
  | cons y members ih =>
      rw [among] at ih
      rw [among, List.map_cons, Truth.any_cons, ih]
      cases members <;> rfl

end Number

namespace Expression

/-- A membership test where NULL may be among the members, which IN does not find. -/
def membership (item : Expression) (members : List Expression) (hasNull negated : Bool) :
    Expression :=
  if members.isEmpty then isNull item negated
  else if hasNull then
    if negated then and (among item true members) (isNull item true)
    else or (among item false members) (isNull item false)
  else among item negated members

theorem eval_membership (env : Environment) (item : Expression) {members : List Expression}
    {hasNull : Bool} (covered : members = [] → hasNull = true) (negated : Bool) :
    (membership item members hasNull negated).eval env =
      Number.ofTruth (
        let found := (Number.among (item.eval env) (members.map (eval env))).or
          (some (hasNull && (item.eval env).isNone))
        if negated then found.not else found) := by
  cases members with
  | nil =>
      rw [covered rfl]
      cases negated <;> simp [membership, eval, Number.among, Truth.false_or, Truth.not]
  | cons e members =>
      cases hasNull with
      | false =>
          simp [membership, eval, evals_eq_map, Truth.or_false]
      | true =>
          cases negated with
          | false => simp [membership, eval, evals_eq_map]
          | true =>
              rw [membership, if_neg (by simp), if_pos rfl, if_pos rfl, eval, eval, eval,
                evals_eq_map, if_pos rfl, if_pos rfl, Number.truth_ofTruth, Number.truth_ofTruth,
                Bool.bne_true, Truth.not_or]
              rfl

end Expression

end Sql

namespace Term

/-- The members of a list that are no NULL literals have expressions and values of one
kind; `hasNull` tells whether there are others. -/
inductive Members (c : CompileContext) (k : Kind) : List Term → List Expression → Bool → Prop where
  | nil : Members c k [] [] false
  | null {t : Term} {ts : List Term} {es : List Expression} {hasNull : Bool}
      (literal : Literal c t .null) (rest : Members c k ts es hasNull) :
      Members c k (t :: ts) es true
  | value {t : Term} {ts : List Term} {e : Expression} {es : List Expression} {hasNull : Bool}
      (regular : t.Regular c) (typed : t.Typed c k) (denotes : e.Denotes c t)
      (rest : Members c k ts es hasNull) : Members c k (t :: ts) (e :: es) hasNull

namespace Members

variable {c : CompileContext} {k : Kind} {scope : Scope} {env : Expression.Environment}
variable {ts : List Term} {es : List Expression} {hasNull : Bool} {vs : List Value}

theorem any_literalNull (members : Members c k ts es hasNull) (mirrors : c.Mirrors scope env)
    (evaluated : List.Forall₂ (fun t v => t.eval scope = .ok v) ts vs) :
    ((sourced ts vs).any fun (v, ofRow) => v.isNull && !ofRow) = hasNull := by
  induction members generalizing vs with
  | nil =>
      cases evaluated
      rfl
  | @null t ts es hasNull literal rest ih =>
      cases evaluated with
      | cons head tail =>
          rw [literal.eval_eq mirrors.arguments] at head
          obtain rfl := Except.ok.inj head
          rw [sourced_cons, List.any_cons, literal.readsRow]
          rfl
  | @value t ts e es hasNull regular typed denotes rest ih =>
      cases evaluated with
      | @cons _ v _ vs head tail =>
          have notLiteral : (v.isNull && !t.readsRow) = false := (regular.value mirrors head).2
          simp only [sourced_cons, List.any_cons, notLiteral, Bool.false_or]
          exact ih tail

/-- A list without other members has NULL literals. -/
theorem hasNull_of_empty (members : Members c k ts es hasNull) (nonempty : ts ≠ [])
    (empty : es = []) : hasNull = true := by
  cases members with
  | nil => exact absurd rfl nonempty
  | null => rfl
  | value => cases empty

/-- Whether a value is among the members. -/
theorem among_eq (members : Members c k ts es hasNull) (mirrors : c.Mirrors scope env)
    (evaluated : List.Forall₂ (fun t v => t.eval scope = .ok v) ts vs) {a : Value}
    (kind : a.kind = k) (integral : k.isIntegral = true) :
    Number.among a.number? (es.map (·.eval env)) =
      .ofSearch ((sourced ts vs).any fun (v, _) => v.looseEq a)
        ((sourced ts vs).any fun (v, ofRow) => v.isNull && ofRow) := by
  subst kind
  have different : Value.null.looseEq a = false := by
    cases a <;> first | rfl | cases integral
  induction members generalizing vs with
  | nil =>
      cases evaluated
      rfl
  | @null t ts es hasNull literal rest ih =>
      cases evaluated with
      | cons head tail =>
          rw [literal.eval_eq mirrors.arguments] at head
          obtain rfl := Except.ok.inj head
          simp only [sourced_cons, List.any_cons, different, literal.readsRow, Bool.and_false,
            Bool.false_or]
          exact ih tail
  | @value t ts e es hasNull regular typed denotes rest ih =>
      cases evaluated with
      | @cons _ v _ vs head tail =>
          have here : Number.compare .eq a.number? v.number? =
              .ofSearch (v.looseEq a) (v.isNull && t.readsRow) := by
            rcases (regular.value mirrors head).1 with ⟨rfl, unknown⟩ | ⟨kind, -⟩
            · have ofRow : (Value.null.isNull && t.readsRow) = true := unknown
              rw [different, ofRow]
              exact Number.compare_none _ _
            · rcases typed _ _ _ mirrors head with rfl | same
              · cases kind
              · rw [Value.isNull_of_integral kind]
                exact Value.compare_eq_number? integral same
          have later := ih tail
          rw [Number.among] at later
          simp only [Number.among, List.map_cons, Truth.any_cons, later,
            denotes _ _ _ mirrors head, here, sourced_cons, List.any_cons, Truth.or_ofSearch]

/-- The evaluator finds among the members what SQL finds. -/
theorem amongMembers_eq_ofTruth (members : Members c k ts es hasNull) (nonempty : ts ≠ [])
    (mirrors : c.Mirrors scope env)
    (evaluated : List.Forall₂ (fun t v => t.eval scope = .ok v) ts vs) {item : Term}
    (regular : item.Regular c) (typed : item.Typed c k) (integral : k.isIntegral = true)
    {a : Value} (itemEq : item.eval scope = .ok a) :
    amongMembers (isUnknown item a) a (sourced ts vs) =
      .ofTruth ((Number.among a.number? (es.map (·.eval env))).or
        (some (hasNull && a.number?.isNone))) := by
  rw [amongMembers_eq]
  rcases (regular.value mirrors itemEq).1 with ⟨rfl, unknown⟩ | ⟨kind, known⟩
  · rw [unknown, if_pos rfl, members.any_literalNull mirrors evaluated]
    have covered := members.hasNull_of_empty nonempty
    have number : Value.null.number? = none := rfl
    rw [number, Number.among_none, Option.isNone_none, Bool.and_true]
    cases es with
    | nil =>
        rw [covered rfl]
        rfl
    | cons e es => cases hasNull <;> rfl
  · have same : a.kind = k := by
      rcases typed _ _ _ mirrors itemEq with rfl | same
      · cases kind
      · exact same
    have number : a.number?.isNone = false := by
      rw [regular.isNone_number? mirrors itemEq, Value.isNull_of_integral kind]
    rw [known, if_neg Bool.false_ne_true, members.among_eq mirrors evaluated same integral, number,
      Bool.and_false, Truth.or_false]

end Members

end Term

namespace Sql.Expression.Denotes

variable {c : CompileContext} {e : Expression}

/-- A membership test among members some of which may be NULL literals. -/
theorem membership {item collection : Term} {members : List Term} {es : List Expression}
    {hasNull : Bool} {k : Kind} (lists : Term.Lists c collection members) (nonempty : members ≠ [])
    (integral : k.isIntegral = true) (regular : item.Regular c) (typed : item.Typed c k)
    (denotes : e.Denotes c item) (each : Term.Members c k members es hasNull) (negated : Bool) :
    (membership e es hasNull negated).Denotes c (.member item collection negated) := by
  intro scope env v mirrors evaluated
  obtain ⟨a, vs, itemEq, membersEq, rfl⟩ := lists.eval_member mirrors.arguments evaluated
  rw [each.amongMembers_eq_ofTruth nonempty mirrors membersEq regular typed integral itemEq,
    Term.negateIf_ofTruth, Value.number?_ofTruth,
    eval_membership env e (each.hasNull_of_empty nonempty) negated, denotes _ _ _ mirrors itemEq]

end Sql.Expression.Denotes

namespace Sql.Expression

variable {c : CompileContext} {e : Expression} {es : List Expression} {t : Term} {ts : List Term}

/-- A term with truth values is decided by what denotes it. -/
theorem Denotes.decides (denotes : e.Denotes c t) (typed : t.Typed c .bool) : e.Decides c t := by
  intro scope env v mirrors evaluated
  rw [denotes _ _ _ mirrors evaluated, ← Value.number?_ofTruth, ← Value.eq_ofTruth]
  exact (typed _ _ _ mirrors evaluated).symm

namespace Decides

theorem not (decides : e.Decides c t) : (not e).Denotes c (.not t) := by
  intro scope env v mirrors evaluated
  rw [Term.eval] at evaluated
  obtain ⟨w, innerEq, ended⟩ := Except.bind_eq_ok_iff.1 evaluated
  obtain rfl := Except.ok.inj ended
  rw [eval, decides _ _ _ mirrors innerEq, Number.truth_ofTruth, Value.negation_eq_ofTruth,
    Value.number?_ofTruth]

theorem partsAgree (each : List.Forall₂ (fun t e => Decides c e t) ts es) {scope : Scope}
    {env : Environment} (mirrors : c.Mirrors scope env) :
    Term.PartsAgree Eq scope ts (es.map fun e => (eval env e).truth) := by
  induction each with
  | nil => exact .nil
  | cons head _ ih =>
      refine .cons (fun v evaluated => ?_) ih
      simp only [head _ _ _ mirrors evaluated, Number.truth_ofTruth]

theorem all (first : e.Decides c t) (each : List.Forall₂ (fun t e => Decides c e t) ts es) :
    (es.foldl and e).Denotes c (.all (t :: ts)) := by
  intro scope env v mirrors evaluated
  rw [Term.eval] at evaluated
  have agrees : v.truth = Truth.and (some true)
      (Truth.all ((e :: es).map fun e => (eval env e).truth)) :=
    Term.evalAll_agrees Truth.agreement_eq (partsAgree (.cons first each) mirrors) rfl evaluated
  rw [Value.eq_ofTruth ((Term.evalAll_result evaluated).imp_right And.left)]
  rw [Term.evalAll] at evaluated
  obtain ⟨w, firstEq, -⟩ := Except.bind_eq_ok_iff.1 evaluated
  have value := first _ _ _ mirrors firstEq
  rw [eval_foldl_and value, Value.number?_ofTruth, agrees, Truth.true_and, List.map_cons,
    Truth.all_cons, value, Number.truth_ofTruth]

theorem any (first : e.Decides c t) (each : List.Forall₂ (fun t e => Decides c e t) ts es) :
    (es.foldl or e).Denotes c (.any (t :: ts)) := by
  intro scope env v mirrors evaluated
  rw [Term.eval] at evaluated
  have agrees : v.truth = Truth.or (some false)
      (Truth.any ((e :: es).map fun e => (eval env e).truth)) :=
    Term.evalAny_agrees Truth.agreement_eq (partsAgree (.cons first each) mirrors) rfl evaluated
  rw [Value.eq_ofTruth ((Term.evalAny_result evaluated).imp_right And.left)]
  rw [Term.evalAny] at evaluated
  obtain ⟨w, firstEq, -⟩ := Except.bind_eq_ok_iff.1 evaluated
  have value := first _ _ _ mirrors firstEq
  rw [eval_foldl_or value, Value.number?_ofTruth, agrees, Truth.false_or, List.map_cons,
    Truth.any_cons, value, Number.truth_ofTruth]

end Decides

end Sql.Expression

end RowQuery
