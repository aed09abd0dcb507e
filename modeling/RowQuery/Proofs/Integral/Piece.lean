import RowQuery.Proofs.Integral.Operand
import RowQuery.Proofs.Piece

/-!
# Pieces for terms on integers and truth values

What a compiled piece has to do with its term.  A constant piece is the literal of the
value of the term; another one reads as an expression that denotes the term, as an
operand and, if it is a condition, also next to AND and OR.  Each step of the compiler
keeps this.
-/

namespace RowQuery

open RowQuery.Number RowQuery.Sql

/-- A text that does not begin with a sign. -/
def Unsigned (text : String) : Prop :=
  ∃ first rest, text.toList = first :: rest ∧ first ≠ '-'

theorem unsigned_bracketed (text : String) : Unsigned (Text.bracketed text) :=
  ⟨'(', _, by rw [Text.bracketed, String.toList_append, String.toList_append]; rfl, by decide⟩

theorem unsigned_enclose {mark : Char} (isMark : Lexer.IsMark mark) (name rest : String) :
    Unsigned (enclose mark name ++ rest) := by
  refine ⟨mark, _, by rw [String.toList_append, Lexes.toList_enclose], ?_⟩
  rintro rfl
  rcases isMark with same | same <;> cases same

/-- A piece has the meaning of a term. -/
inductive Piece.Means (c : CompileContext) (mark : Char) (n : Bool) (t : Term) (p : Piece) :
    Prop where
  | null (compiled : c.literal .null = .ok p) (allowed : n = true)
      (literal : Term.Literal c t .null)
  | known {w : Value} (compiled : c.literal w = .ok p) (integral : w.kind.isIntegral = true)
      (regular : t.Regular c)
      (value : ∀ {scope v}, scope.arguments = c.arguments → t.eval scope = .ok v → v = w)
  | unknown {e : Expression} (constant : p.fragment.constant = none) (regular : t.Regular c)
      (kind : p.fragment.kind.isIntegral = true) (typed : t.Typed c p.fragment.kind)
      (denotes : e.Denotes c t) (reads : Reads mark atomPower (c.operand p).sql e)
      (unsigned : Unsigned (c.operand p).sql)
      (condition : p.condition = true →
        p.fragment.kind = .bool ∧ Reads mark conditionPower p.fragment.sql e)

/-- A piece has the meaning of a term in the place of a condition. -/
structure Piece.Judges (c : CompileContext) (mark : Char) (t : Term) (p : Piece) : Prop where
  known : ∀ {w}, p.fragment.constant = some w →
    ∀ {scope v}, scope.arguments = c.arguments → t.eval scope = .ok v → v.truth = some w.truthy
  written : ∃ e, Reads mark conditionPower p.fragment.sql e ∧ e.Decides c t

namespace CompileContext

variable {c : CompileContext} {p : Piece}

theorem literal_int_eq_ok {i : Int64} (compiled : c.literal (.int i) = .ok p) :
    ∃ sql type, Codec.encodeInt i type = .ok sql ∧
      p = { fragment := .literal sql (.int i) type } :=
  literal_eq_ok compiled (by simp [Value.kind])

end CompileContext

namespace Piece.Means

variable {c : CompileContext} {mark : Char} {n : Bool} {t l r : Term} {p q : Piece}

/-- The value of a constant piece is that of its term, and nothing is unknown about it. -/
theorem of_constant (means : p.Means c mark n t) {w : Value}
    (constant : p.fragment.constant = some w) {scope : Scope} (arguments : scope.arguments = c.arguments) {v : Value}
    (evaluated : t.eval scope = .ok v) : v = w ∧ Term.isUnknown t v = false := by
  cases means with
  | null compiled allowed literal =>
      rw [(CompileContext.constant_of_literal compiled).1] at constant
      obtain rfl := Option.some.inj constant
      rw [literal.eval_eq arguments] at evaluated
      obtain rfl := Except.ok.inj evaluated
      exact ⟨rfl, literal.isLiteralNull_eq.1⟩
  | known compiled integral regular value =>
      rw [(CompileContext.constant_of_literal compiled).1] at constant
      obtain rfl := Option.some.inj constant
      obtain rfl := value arguments evaluated
      exact ⟨rfl, by rw [Term.isUnknown, Value.isNull_of_integral integral, Bool.false_and]⟩
  | unknown open' =>
      rw [open'] at constant
      cases constant

/-- A piece that is NULL comes from a NULL literal. -/
theorem of_isNull (means : p.Means c mark n t) (isNull : p.fragment.isNull = true) :
    Term.Literal c t .null ∧ p.fragment.kind = .null := by
  cases means with
  | null compiled allowed literal =>
      exact ⟨literal, (CompileContext.constant_of_literal compiled).2.1⟩
  | known compiled integral regular value =>
      rw [Fragment.isNull_of_constant (CompileContext.constant_of_literal compiled).1,
        Value.isNull_of_integral integral] at isNull
      cases isNull
  | unknown constant =>
      rw [Fragment.isNull_of_open constant] at isNull
      cases isNull

/-- Where NULL is not asked for there is no NULL. -/
theorem notNull (means : p.Means c mark false t) : p.fragment.isNull = false := by
  cases means with
  | null compiled allowed literal => cases allowed
  | known compiled integral regular value =>
      rw [Fragment.isNull_of_constant (CompileContext.constant_of_literal compiled).1,
        Value.isNull_of_integral integral]
  | unknown constant => exact Fragment.isNull_of_open constant

theorem integral_of_constant (means : p.Means c mark false t) {w : Value}
    (constant : p.fragment.constant = some w) : w.kind.isIntegral = true := by
  cases means with
  | null compiled allowed literal => cases allowed
  | known compiled integral regular value =>
      rw [(CompileContext.constant_of_literal compiled).1] at constant
      exact Option.some.inj constant ▸ integral
  | unknown open' =>
      rw [open'] at constant
      cases constant

/-- Any other piece stands for its term as an operand. -/
theorem standsFor (usual : c.dialect.Usual mark) (means : p.Means c mark n t)
    (notNull : p.fragment.isNull = false) : (c.operand p).StandsFor c mark t := by
  cases means with
  | null compiled allowed literal =>
      rw [Fragment.isNull_of_constant (CompileContext.constant_of_literal compiled).1] at notNull
      cases notNull
  | @known w compiled integral regular value =>
      obtain ⟨constant, kind, -⟩ := CompileContext.constant_of_literal compiled
      have shows : Shows mark operandPower (c.operand p).sql w := by
        cases w with
        | int i =>
            obtain ⟨sql, type, encoded, rfl⟩ := CompileContext.literal_int_eq_ok compiled
            exact .encodeInt usual.isMark encoded
        | bool b =>
            obtain ⟨type, rfl⟩ := CompileContext.truth_eq_ok compiled
            exact usual.truthLiteral b _
        | _ => cases integral
      obtain ⟨e, reads, shown⟩ := shows
      refine ⟨regular, ?_, ?_, ⟨e, reads, ?_⟩, ?_⟩
      · rwa [CompileContext.operand_kind, kind]
      · intro scope env v mirrors evaluated
        rw [CompileContext.operand_kind, kind, value mirrors.arguments evaluated]
        exact .inr rfl
      · intro scope env v mirrors evaluated
        rw [shown, value mirrors.arguments evaluated]
      · intro w' same
        rw [CompileContext.operand_constant, constant] at same
        obtain rfl := Option.some.inj same
        exact ⟨by rw [CompileContext.operand_kind, kind], value⟩
  | @unknown e constant regular kind typed denotes reads unsigned condition =>
      refine ⟨regular, ?_, ?_, ⟨e, reads.mono (by decide), denotes⟩, ?_⟩
      · rwa [CompileContext.operand_kind]
      · rwa [CompileContext.operand_kind]
      · intro w same
        rw [CompileContext.operand_constant, constant] at same
        cases same

/-- A condition of known value. -/
theorem of_truth {b : Bool} (compiled : c.truth b = .ok p) (regular : t.Regular c)
    (value : ∀ {scope v}, scope.arguments = c.arguments → t.eval scope = .ok v → v = .bool b) :
    p.Means c mark n t :=
  .known (w := .bool b) compiled rfl regular value

/-- Another condition. -/
theorem of_test (usual : c.dialect.Usual mark) {sql : String} {aggregate exact : Bool}
    (compiled : c.test sql aggregate exact = .ok p) (regular : t.Regular c)
    (typed : t.Typed c .bool) {e : Expression} (reads : Reads mark conditionPower sql e)
    (denotes : e.Denotes c t) : p.Means c mark n t := by
  obtain ⟨type, rfl⟩ := CompileContext.test_eq_ok compiled
  exact .unknown rfl regular rfl typed denotes (reads.bracketed usual.isMark (by decide) _)
    (unsigned_bracketed _) fun _ => ⟨rfl, reads⟩

theorem constant_of_isNull (isNull : p.fragment.isNull = true) :
    p.fragment.constant = some .null := by
  cases constant : p.fragment.constant with
  | none =>
      rw [Fragment.isNull_of_open constant] at isNull
      cases isNull
  | some w =>
      rw [Fragment.isNull_of_constant constant] at isNull
      cases w <;> first | rfl | cases isNull

/-- A comparison of a NULL literal with something else. -/
theorem of_nullTest (usual : c.dialect.Usual mark) {op : Comparison}
    (stands : (c.operand q).StandsFor c mark r) {aggregate : Bool}
    (compiled :
      c.test (CompileContext.nullTest (c.operand q).sql (op = .ne)) aggregate true = .ok p)
    (regular : t.Regular c) (typed : t.Typed c .bool)
    (denotes : ∀ e : Expression, e.Denotes c r → (Expression.isNull e (op = .ne)).Denotes c t) :
    p.Means c mark n t := by
  obtain ⟨e, reads, denotesOperand⟩ := stands.written
  exact of_test usual compiled regular typed
    ((reads.isNull usual.isMark comparisonPower_lt _).mono conditionPower_le)
    (denotes e denotesOperand)

/-- A comparison of which at least one side is no constant. -/
theorem compareOpen (usual : c.dialect.Usual mark) {op : Comparison} {result : Piece}
    (left : p.Means c mark op.isEquality l) (right : q.Means c mark op.isEquality r)
    (regular : (Term.compare l op r).Regular c)
    (equality : (p.fragment.isNull || q.fragment.isNull) = true → op.isEquality = true)
    (unfolded : ∀ a b, p.fragment.constant = some a → q.fragment.constant = some b → False)
    (compiled : c.compareOpen p op q = .ok result) :
    result.Means c mark n (.compare l op r) := by
  have typed : (Term.compare l op r).Typed c .bool := Term.typed_compare op
  unfold CompileContext.compareOpen at compiled
  cases leftNull : p.fragment.isNull with
  | true =>
      rw [leftNull, Bool.true_or] at equality
      rw [leftNull, Bool.true_or, if_pos rfl, if_pos rfl] at compiled
      have rightStands := right.standsFor usual (Bool.eq_false_iff.2 fun rightNull =>
        unfolded _ _ (constant_of_isNull leftNull) (constant_of_isNull rightNull))
      exact of_nullTest usual rightStands compiled regular typed fun e denotes =>
        (Expression.Denotes.nullTest (equality rfl) rightStands.regular (left.of_isNull leftNull).1
          denotes).1
  | false =>
      have leftStands := left.standsFor usual leftNull
      cases rightNull : q.fragment.isNull with
      | true =>
          rw [rightNull, Bool.or_true] at equality
          rw [leftNull, rightNull, Bool.or_true, if_pos rfl, if_neg Bool.false_ne_true] at compiled
          exact of_nullTest usual leftStands compiled regular typed fun e denotes =>
            (Expression.Denotes.nullTest (equality rfl) leftStands.regular
              (right.of_isNull rightNull).1 denotes).2
      | false =>
          have rightStands := right.standsFor usual rightNull
          rw [leftNull, rightNull, Bool.or_false, if_neg Bool.false_ne_true] at compiled
          split at compiled
          · cases compiled
          · rename_i accepted
            have same : (c.operand q).kind = (c.operand p).kind := by
              refine Kind.eq_of_accepts op leftStands.kind rightStands.kind ?_
              rw [CompileContext.operand_kind, CompileContext.operand_kind]
              simpa using accepted
            obtain ⟨sql, sqlEq, compiled⟩ := Except.bind_eq_ok_iff.1 compiled
            obtain ⟨e, reads, denotes⟩ :=
              leftStands.compare usual rightStands same (Walk.ofOption_eq_ok_iff.1 sqlEq)
            exact of_test usual compiled regular typed (reads.mono conditionPower_le) denotes

theorem compare (usual : c.dialect.Usual mark) {op : Comparison} {shown : String} {result : Piece}
    (left : p.Means c mark op.isEquality l) (right : q.Means c mark op.isEquality r)
    (regular : (Term.compare l op r).Regular c) (compiled : c.compare shown p op q = .ok result) :
    result.Means c mark n (.compare l op r) := by
  unfold CompileContext.compare at compiled
  split at compiled
  · cases compiled
  · rename_i ordered
    split at compiled
    · rename_i a b leftConstant rightConstant
      obtain ⟨answer, answerEq, compiled⟩ := Except.bind_eq_ok_iff.1 compiled
      refine of_truth compiled regular fun {scope v} arguments evaluated => ?_
      rw [Term.eval] at evaluated
      obtain ⟨x, leftEq, rest⟩ := Except.bind_eq_ok_iff.1 evaluated
      obtain ⟨y, rightEq, rest⟩ := Except.bind_eq_ok_iff.1 rest
      obtain ⟨rfl, leftKnown⟩ := left.of_constant leftConstant arguments leftEq
      obtain ⟨rfl, rightKnown⟩ := right.of_constant rightConstant arguments rightEq
      rw [Term.compareValues, leftKnown, rightKnown, Bool.or_false, Bool.and_false,
        if_neg Bool.false_ne_true, Walk.ofOutcome_eq_ok_iff.1 answerEq] at rest
      exact (Except.ok.inj rest).symm
    · rename_i unfolded
      refine compareOpen usual left right regular (fun either => ?_) unfolded compiled
      simpa [either] using ordered

/-- The result of an operation on constants. -/
theorem of_folded {outcome : Outcome Value} (compiled : c.folded outcome = .ok p)
    (regular : t.Regular c) (integral : ∀ {w}, outcome = .ok w → w.kind.isIntegral = true)
    (value : ∀ {scope v}, scope.arguments = c.arguments → t.eval scope = .ok v → outcome = .ok v) :
    p.Means c mark n t := by
  obtain ⟨w, result, compiled⟩ := Except.bind_eq_ok_iff.1 compiled
  have result := Walk.ofOutcome_eq_ok_iff.1 result
  refine .known compiled (integral result) regular fun arguments evaluated => ?_
  rw [value arguments evaluated] at result
  exact Except.ok.inj result

/-- An integer in brackets. -/
theorem of_bracketed (usual : c.dialect.Usual mark) {inner : String} {e : Expression} {power : Nat}
    (unfolded : p.fragment.constant = none) (noCondition : p.condition = false)
    (sql : p.fragment.sql = Text.bracketed inner) (kind : p.fragment.kind = .int)
    (regular : t.Regular c) (typed : t.Typed c .int) (reads : Reads mark power inner e)
    (positive : 0 < power) (denotes : e.Denotes c t) : p.Means c mark n t := by
  have operandSql : (c.operand p).sql = Text.bracketed inner := by
    rw [CompileContext.operand_of_not_condition noCondition unfolded, sql]
  refine .unknown unfolded regular (by rw [kind]; rfl) (kind ▸ typed) denotes ?_ ?_
    fun condition => ?_
  · exact operandSql ▸ reads.bracketed usual.isMark positive _
  · exact operandSql ▸ unsigned_bracketed inner
  · rw [noCondition] at condition
    cases condition

theorem arithmetic (usual : c.dialect.Usual mark) {op : Arithmetic} {result : Piece}
    (noQuotient : op ≠ .div) (left : p.Means c mark false l) (right : q.Means c mark false r)
    (regular : (Term.arithmetic l op r).Regular c) (compiled : c.arithmetic p op q = .ok result) :
    result.Means c mark n (.arithmetic l op r) := by
  have leftStands := left.standsFor usual left.notNull
  have rightStands := right.standsFor usual right.notNull
  unfold CompileContext.arithmetic at compiled
  split at compiled
  · rename_i a b leftConstant rightConstant
    refine of_folded compiled regular (fun {w} computed => ?_)
      fun {scope v} arguments evaluated => ?_
    · obtain ⟨-, -, k, -, -, rfl, -⟩ :=
        Value.arithmetic_eq_ok (left.integral_of_constant leftConstant)
          (right.integral_of_constant rightConstant) noQuotient computed
      rfl
    · rw [Term.eval] at evaluated
      obtain ⟨x, leftEq, rest⟩ := Except.bind_eq_ok_iff.1 evaluated
      obtain ⟨rfl, leftKnown⟩ := left.of_constant leftConstant arguments leftEq
      rw [leftKnown, if_neg Bool.false_ne_true] at rest
      obtain ⟨y, rightEq, rest⟩ := Except.bind_eq_ok_iff.1 rest
      obtain ⟨rfl, rightKnown⟩ := right.of_constant rightConstant arguments rightEq
      rwa [rightKnown, if_neg Bool.false_ne_true] at rest
  · rename_i unfolded
    obtain ⟨kind, kindEq, compiled⟩ := Except.bind_eq_ok_iff.1 compiled
    obtain ⟨sql, sqlEq, compiled⟩ := Except.bind_eq_ok_iff.1 compiled
    have kindEq := Walk.ofOption_eq_ok_iff.1 kindEq
    rw [← c.operand_kind p, ← c.operand_kind q] at kindEq
    obtain ⟨leftInt, rightInt, rfl⟩ :=
      Kind.resultKind_integral leftStands.kind rightStands.kind noQuotient kindEq
    obtain ⟨inner, e, rfl, reads, denotes⟩ := leftStands.arithmetic? usual rightStands noQuotient
      leftInt rightInt (Walk.ofOption_eq_ok_iff.1 sqlEq)
    rw [if_pos leftInt.symm] at compiled
    obtain rfl := Except.ok.inj compiled
    exact of_bracketed usual rfl rfl rfl rfl regular
      (Term.typed_arithmetic noQuotient leftStands.regular rightStands.regular) reads (by decide)
      denotes

theorem negative (usual : c.dialect.Usual mark) {result : Piece} (operand : p.Means c mark false t)
    (regular : (Term.negate t).Regular c) (compiled : c.negative p = .ok result) :
    result.Means c mark n (.negate t) := by
  unfold CompileContext.negative at compiled
  split at compiled
  · rename_i a constant
    refine of_folded compiled regular (fun {w} computed => ?_)
      fun {scope v} arguments evaluated => ?_
    · obtain ⟨-, k, -, rfl, -⟩ :=
        Value.negate_eq_ok (operand.integral_of_constant constant) computed
      rfl
    · rw [Term.eval] at evaluated
      obtain ⟨x, innerEq, rest⟩ := Except.bind_eq_ok_iff.1 evaluated
      obtain ⟨rfl, known⟩ := operand.of_constant constant arguments innerEq
      rwa [known, if_neg Bool.false_ne_true] at rest
  · rename_i constant
    cases operand with
    | null literal allowed => cases allowed
    | known literal =>
        rw [(CompileContext.constant_of_literal literal).1] at constant
        cases constant
    | @unknown e _ operandRegular kind typed denotes reads unsigned condition =>
        split at compiled
        · rename_i numeric
          have int : p.fragment.kind = .int := by
            rcases Kind.isIntegral_iff.1 kind with int | bool
            · exact int
            · rw [bool] at numeric
              simp [Kind.isNumeric] at numeric
          have noCondition : p.condition = false := by
            refine Bool.eq_false_iff.2 fun holds => ?_
            rw [(condition holds).1] at int
            cases int
          obtain rfl := Except.ok.inj compiled
          rw [CompileContext.operand_of_not_condition noCondition constant] at reads unsigned
          obtain ⟨first, rest, begins, single⟩ := unsigned
          refine of_bracketed usual rfl rfl ?_ int regular (Term.typed_negate operandRegular)
            (reads.negative usual.isMark begins single) (by decide)
            (denotes.negative operandRegular)
          simp only [Text.bracketed, String.append_assoc]
          rfl
        · cases compiled

end Piece.Means

end RowQuery
