import RowQuery.Proofs.Truth
import RowQuery.Sql.Operator

/-!
# Expressions of SQL

The expressions that conditions on integers and truth values are made of, and what
they mean.  There is one domain, the integers with NULL, in which truth values are
one and zero.  NULL is passed on by operators, and AND, OR and NOT follow three-valued
logic.  What a remainder by zero is differs between databases, so it is a parameter.
-/

namespace RowQuery.Sql

/-- The arithmetic operators on integers. -/
inductive IntegerOperator where
  | plus
  | minus
  | times
  | percent
  deriving DecidableEq

/-- An SQL expression. -/
inductive Expression where
  | null
  | number (n : Nat)
  | truth (b : Bool)
  /-- A column by its name, which may be qualified. -/
  | column (path : List String)
  | negative (e : Expression)
  | integer (l : Expression) (op : IntegerOperator) (r : Expression)
  | compare (l : Expression) (op : Comparison) (r : Expression)
  | isNull (e : Expression) (negated : Bool)
  | among (item : Expression) (negated : Bool) (members : List Expression)
  | not (e : Expression)
  | and (l r : Expression)
  | or (l r : Expression)

/-- An integer or NULL. -/
abbrev Number := Option Int

namespace Number

/-- A truth value as a number. -/
def ofTruth : Truth → Number :=
  Option.map fun b => if b then 1 else 0

/-- A number as a truth value: only zero is false. -/
def truth : Number → Truth :=
  Option.map fun i => i ≠ 0

@[simp]
theorem truth_ofTruth (t : Truth) : truth (ofTruth t) = t := by
  rcases t with _ | _ | _ <;> rfl

/-- A comparison; that with NULL is unknown. -/
def compare (op : Comparison) : Number → Number → Truth
  | some a, some b => some (op.holds (some (Ord.compare a b)))
  | _, _ => none

/-- Whether a number is among others. -/
def among (item : Number) (members : List Number) : Truth :=
  Truth.any (members.map (compare .eq item))

end Number

namespace IntegerOperator

/-- The result of an operator, where remainders by zero are given. -/
def apply (byZero : Int → Number) (op : IntegerOperator) (a b : Int) : Number :=
  match op with
  | plus => some (a + b)
  | minus => some (a - b)
  | times => some (a * b)
  | percent => if b = 0 then byZero a else some (Int.tmod a b)

/-- The operator on numbers, which passes NULL on. -/
def lift (byZero : Int → Number) (op : IntegerOperator) : Number → Number → Number
  | some a, some b => op.apply byZero a b
  | _, _ => none

@[simp]
theorem lift_none_left (byZero : Int → Number) (op : IntegerOperator) (b : Number) :
    op.lift byZero none b = none :=
  rfl

@[simp]
theorem lift_none_right (byZero : Int → Number) (op : IntegerOperator) (a : Number) :
    op.lift byZero a none = none := by
  cases a <;> rfl

end IntegerOperator

namespace Expression

/-- What an expression is evaluated in: the columns of a row, and what databases do not
agree on. -/
structure Environment where
  columns : List String → Number
  byZero : Int → Number

mutual

/-- The value of an expression. -/
def eval (env : Environment) : Expression → Number
  | null => none
  | number n => some n
  | truth b => Number.ofTruth (some b)
  | column path => env.columns path
  | negative e => (eval env e).map fun i => -i
  | integer l op r => op.lift env.byZero (eval env l) (eval env r)
  | compare l op r => Number.ofTruth (Number.compare op (eval env l) (eval env r))
  | isNull e negated => Number.ofTruth (some ((eval env e).isNone != negated))
  | among item negated members =>
      let found := Number.among (eval env item) (evals env members)
      Number.ofTruth (if negated then found.not else found)
  | not e => Number.ofTruth (eval env e).truth.not
  | and l r => Number.ofTruth ((eval env l).truth.and (eval env r).truth)
  | or l r => Number.ofTruth ((eval env l).truth.or (eval env r).truth)

/-- The values of several expressions. -/
def evals (env : Environment) : List Expression → List Number
  | [] => []
  | e :: es => eval env e :: evals env es

end

theorem evals_eq_map (env : Environment) (es : List Expression) :
    evals env es = es.map (eval env) := by
  induction es with
  | nil => rfl
  | cons e es ih => exact congrArg (eval env e :: ·) ih

/-- A condition holds where it is true. -/
def holds (env : Environment) (e : Expression) : Prop :=
  (eval env e).truth = some true

/-- The expression of an integer. -/
def ofInt (i : Int) : Expression :=
  if i < 0 then negative (number i.natAbs) else number i.natAbs

theorem eval_ofInt (env : Environment) (i : Int) : eval env (ofInt i) = some i := by
  unfold ofInt
  split
  · simp only [eval, Option.map_some, Option.some.injEq]
    omega
  · simp only [eval, Option.some.injEq]
    omega

theorem eval_foldl_and {env : Environment} {first : Expression} {t : Truth}
    (value : eval env first = Number.ofTruth t) (es : List Expression) :
    eval env (es.foldl and first) =
      Number.ofTruth (t.and (Truth.all (es.map fun e => (eval env e).truth))) := by
  induction es generalizing first t with
  | nil => rw [List.map_nil, Truth.all_nil, Truth.and_true, List.foldl_nil, value]
  | cons e es ih =>
      have joined : eval env (.and first e) = Number.ofTruth (t.and (eval env e).truth) := by
        rw [eval, value, Number.truth_ofTruth]
      rw [List.foldl_cons, ih joined, List.map_cons, Truth.all_cons, ← Truth.and_assoc]

theorem eval_foldl_or {env : Environment} {first : Expression} {t : Truth}
    (value : eval env first = Number.ofTruth t) (es : List Expression) :
    eval env (es.foldl or first) =
      Number.ofTruth (t.or (Truth.any (es.map fun e => (eval env e).truth))) := by
  induction es generalizing first t with
  | nil => rw [List.map_nil, Truth.any_nil, Truth.or_false, List.foldl_nil, value]
  | cons e es ih =>
      have joined : eval env (.or first e) = Number.ofTruth (t.or (eval env e).truth) := by
        rw [eval, value, Number.truth_ofTruth]
      rw [List.foldl_cons, ih joined, List.map_cons, Truth.any_cons, ← Truth.or_assoc]

end Expression

end RowQuery.Sql
