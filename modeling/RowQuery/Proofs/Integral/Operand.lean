import RowQuery.Proofs.Integral.Denotation
import RowQuery.Proofs.Integral.Term
import RowQuery.Proofs.Sql.Reading

/-!
# How dialects write conditions

What the translation of terms on integers and truth values asks of a dialect.  All
built-in dialects are alike in this, up to the mark around names and the literals for
truth values.
-/

namespace RowQuery

open RowQuery.Number RowQuery.Sql RowQuery.Sql.Lexer

/-- The mark around names. -/
def BuiltinDialect.mark : BuiltinDialect → Char
  | mysql => Dialect.backquote
  | _ => '"'

namespace Sql

/-- A text that reads as an expression of a value that does not depend on the row. -/
def Shows (mark : Char) (power : Nat) (text : String) (v : Value) : Prop :=
  ∃ e, Reads mark power text e ∧ ∀ env, e.eval env = v.number?

namespace Shows

variable {mark : Char} {power : Nat}

variable (isMark : IsMark mark)

include isMark

theorem int (i : Int64) : Shows mark (Frame.power .negative) (intText i.toInt) (.int i) :=
  ⟨_, .int isMark _, fun env => Expression.eval_ofInt env _⟩

theorem encodeInt {i : Int64} {type : ColumnType} {text : String}
    (encoded : Codec.encodeInt i type = .ok text) :
    Shows mark (Frame.power .negative) text (.int i) := by
  have written : text = intText i.toInt := by
    unfold Codec.encodeInt at encoded
    split at encoded
    · split at encoded
      · exact (Except.ok.inj encoded).symm
      · cases encoded
    · exact (Except.ok.inj encoded).symm
  exact written ▸ int isMark i

theorem keyword (b : Bool) : Shows mark power (if b then "TRUE" else "FALSE") (.bool b) :=
  ⟨_, .truth isMark b, fun _ => rfl⟩

theorem digit (b : Bool) : Shows mark power (if b then "1" else "0") (.bool b) := by
  have written : ∀ n < 10, natText n = String.ofList [digitChar n] := fun n small => by
    rw [natText, digits, dif_pos small]
  have reads : ∀ n < 10, Reads mark power (String.ofList [digitChar n]) (.number n) :=
    fun n small => written n small ▸ .number isMark n
  cases b with
  | false => exact ⟨_, reads 0 (by decide), fun _ => rfl⟩
  | true => exact ⟨_, reads 1 (by decide), fun _ => rfl⟩

/-- One equals one, and one does not equal zero. -/
theorem equation (b : Bool) :
    Shows mark Operator.comparisonPower (if b then "1=1" else "1=0") (.bool b) := by
  have one : start mark '1' = some ([], .number 1) := by
    rcases isMark with rfl | rfl <;> rfl
  have zero : start mark '0' = some ([], .number 0) := by
    rcases isMark with rfl | rfl <;> rfl
  have equals : Lexer.step mark (.number 1) '=' = some ([.number 1, .compare .eq], .idle) := by
    rcases isMark with rfl | rfl <;> rfl
  have lexes : ∀ {c : Char} {n : Nat}, start mark c = some ([], .number n) →
      Lexes mark ['1', '=', c] [.number 1, .compare .eq, .number n] := by
    intro c n started rest separated
    have last : scan mark idle (c :: rest) = (scan mark idle rest).map ([.number n] ++ ·) :=
      (scan_start_silently _ started).trans (scan_separated isMark rfl separated)
    rw [List.cons_append, scan_start_silently _ one, List.cons_append, scan, equals]
    change (scan mark idle (c :: rest)).map _ = _
    rw [last, Option.map_map]
    rfl
  have atom : ∀ n power, Spells power [.number n] (.number n) := fun _ _ => .atom fun _ => rfl
  have spells : ∀ n, Spells Operator.comparisonPower [.number 1, .compare .eq, .number n]
      (.compare (.number 1) .eq (.number n)) :=
    fun n => (atom 1 (Operator.power (.compare .eq))).operation (atom n _)
  cases b with
  | false => exact ⟨_, ⟨_, lexes zero, spells 0⟩, fun _ => rfl⟩
  | true => exact ⟨_, ⟨_, lexes one, spells 1⟩, fun _ => rfl⟩

end Shows

end Sql

/-- A dialect that writes conditions on integers and truth values in the usual way. -/
structure Dialect.Usual (d : Dialect) (mark : Char) : Prop where
  isMark : IsMark mark
  quoteName : d.quoteName = enclose mark
  compare : ∀ l op r, d.compare l op r = spaced [l, op.sql, r]
  arithmetic : ∀ l op r, d.arithmetic l op r = Text.bracketed (spaced [l, op.symbol, r])
  floorModulo : ∀ l r, d.floorModulo l r =
    Text.bracketed (spaced [
      Text.bracketed (spaced [Text.bracketed (spaced [l, "%", r]), "+", r]), "%", r])
  truthLiteral : ∀ b power, Shows mark power (d.truthLiteral b) (.bool b)
  truthClause : ∀ b, Shows mark Operator.comparisonPower (d.truthClause b) (.bool b)

theorem BuiltinDialect.usual (d : BuiltinDialect) : d.dialect.Usual d.mark := by
  have isMark : IsMark d.mark := by cases d <;> first | exact .inl rfl | exact .inr rfl
  refine ⟨isMark, ?_, ?_, ?_, ?_, ?_, ?_⟩
  · cases d <;> rfl
  · cases d <;> exact fun _ _ _ => rfl
  · cases d <;> exact fun _ _ _ => rfl
  · cases d <;> exact fun _ _ => rfl
  · intro b power
    cases d with
    | sqlite => exact .digit isMark b
    | ansi | postgres | mysql => exact .keyword isMark b
  · intro b
    cases d with
    | sqlite => exact .equation isMark b
    | ansi | postgres | mysql => exact .keyword isMark b

end RowQuery

/-!
# Operands on integers and truth values

Fragments of SQL that stand for terms as operands of something larger.  A constant next
to another operand may be written anew in the column type of that operand, which does not
change its value.
-/

namespace RowQuery

open RowQuery.Number RowQuery.Sql

/-- How strongly operands bind at least; a negative constant begins with a sign. -/
abbrev operandPower : Nat := Frame.power .negative

/-- How strongly conditions bind at least; a negation begins with NOT. -/
abbrev conditionPower : Nat := Frame.power .not

theorem comparisonPower_lt : Operator.comparisonPower < operandPower := by
  decide

theorem comparisonPower_le : Operator.comparisonPower ≤ operandPower :=
  Nat.le_of_lt comparisonPower_lt

theorem conditionPower_le : conditionPower ≤ Operator.comparisonPower := by
  decide

/-- A remainder with the sign of the divisor is written with two remainders that have the sign of
the dividend. -/
theorem Dialect.Usual.reads_floorModulo {d : Dialect} {mark : Char} (usual : d.Usual mark)
    {l r : String} {a b : Expression} (left : Reads mark operandPower l a)
    (right : Reads mark operandPower r b) :
    ∃ inner, d.floorModulo l r = Text.bracketed inner ∧
      Reads mark (Operator.power (.integer .percent)) inner (Arithmetic.mod.expression a b) := by
  have joins : ∀ {o : Operator} {text : String} {e : Expression}, Reads mark o.power text e →
      o.power < operandPower → Reads mark o.power (spaced [text, o.text, r]) (o.apply e b) :=
    fun first weaker => .operation usual.isMark _ first (right.mono weaker)
  have once := joins (left.mono (by decide)) (o := .integer .percent) (by decide)
  have shifted := joins (once.bracketed usual.isMark (by decide) _) (o := .integer .plus)
    (by decide)
  have twice := joins (shifted.bracketed usual.isMark (by decide) _) (o := .integer .percent)
    (by decide)
  exact ⟨_, usual.floorModulo l r, twice⟩

/-- A text reads as an expression with the value of a term. -/
def Term.WrittenAs (c : CompileContext) (mark : Char) (power : Nat) (t : Term) (text : String) :
    Prop :=
  ∃ e, Reads mark power text e ∧ e.Denotes c t

/-- A fragment stands for a term as an operand. -/
structure Sql.Fragment.StandsFor (c : CompileContext) (mark : Char) (f : Fragment) (t : Term) :
    Prop where
  regular : t.Regular c
  kind : f.kind.isIntegral = true
  typed : t.Typed c f.kind
  written : t.WrittenAs c mark operandPower f.sql
  known : ∀ {w}, f.constant = some w → w.kind = f.kind ∧
    ∀ {scope v}, scope.arguments = c.arguments → t.eval scope = .ok v → v = w

namespace Kind

variable {k l : Kind}

theorem eq_of_accepts (op : Comparison) (left : k.isIntegral = true) (right : l.isIntegral = true)
    (accepted : op.accepts k l = true) : l = k := by
  rcases isIntegral_iff.1 left with rfl | rfl <;> rcases isIntegral_iff.1 right with rfl | rfl <;>
    first | rfl | cases accepted

theorem resultKind_integral {op : Arithmetic} {result : Kind} (left : k.isIntegral = true)
    (right : l.isIntegral = true) (noQuotient : op ≠ .div)
    (found : op.resultKind k l = some result) : k = .int ∧ l = .int ∧ result = .int := by
  rcases isIntegral_iff.1 left with rfl | rfl <;> rcases isIntegral_iff.1 right with rfl | rfl <;>
    cases op <;> simp_all [Arithmetic.resultKind]

end Kind

namespace Sql.Fragment

variable {c : CompileContext} {mark : Char} {l r f : Fragment} {s t : Term}

/-- The literal of a constant in the type of an operand has its value. -/
theorem shows_encode (usual : c.dialect.Usual mark) {w : Value} (kind : w.kind.isIntegral = true)
    (same : w.kind = f.kind) {text : String} (encoded : f.encode c.dialect w = .ok text) :
    Shows mark operandPower text w := by
  rw [encode, codec, ← same] at encoded
  cases w with
  | int i => exact .encodeInt usual.isMark encoded
  | bool b =>
      obtain rfl := Except.ok.inj encoded
      unfold Codec.encodeBool
      split
      · exact .digit usual.isMark b
      · exact usual.truthLiteral b _
  | _ => cases kind

namespace StandsFor

/-- A constant written anew still has the value of its term. -/
theorem operandText (usual : c.dialect.Usual mark) (right : r.StandsFor c mark t) (l : Fragment) :
    t.WrittenAs c mark operandPower (operandText c.dialect l r) := by
  unfold Fragment.operandText
  split
  · rename_i w constant
    obtain ⟨same, value⟩ := right.known constant
    split
    · rename_i fits
      split
      · rename_i text encoded
        obtain ⟨e, reads, shown⟩ := shows_encode usual (same ▸ right.kind)
          (by simpa using (Bool.and_eq_true_iff.1 fits).2) encoded
        refine ⟨e, reads, fun scope env v mirrors evaluated => ?_⟩
        rw [shown, value mirrors.arguments evaluated]
      · exact right.written
    · exact right.written
  · exact right.written

/-- Fragments of one kind compare in the way of the dialect. -/
theorem compare?_eq (left : l.StandsFor c mark s) {op : Comparison} (same : r.kind = l.kind) :
    l.compare? c.dialect op r =
      some (c.dialect.compare l.sql op (Fragment.operandText c.dialect l r)) := by
  rcases Kind.isIntegral_iff.1 left.kind with int | bool
  · simp [compare?, codec, same, int, Codec.ofKind, Kind.isNumeric]
  · simp [compare?, codec, same, bool, Codec.ofKind, Codec.kind]

theorem compareFragments (usual : c.dialect.Usual mark) (left : l.StandsFor c mark s)
    (right : r.StandsFor c mark t) {op : Comparison} (same : r.kind = l.kind) {sql : String}
    (found : c.compareFragments l op r = some sql) :
    ∃ a b, Reads mark Operator.comparisonPower sql (.compare a op b) ∧
      a.Denotes c s ∧ b.Denotes c t := by
  obtain ⟨a, readsLeft, denotesLeft⟩ := left.written
  obtain ⟨b, readsRight, denotesRight⟩ := right.operandText usual l
  refine ⟨a, b, ?_, denotesLeft, denotesRight⟩
  rw [CompileContext.compareFragments, left.compare?_eq same, Option.orElse_some,
    usual.compare] at found
  obtain rfl := Option.some.inj found
  exact .operation usual.isMark (.compare op) (readsLeft.mono comparisonPower_le)
    (readsRight.mono comparisonPower_lt)

/-- A comparison of operands of one kind, which a constant on the left turns round. -/
theorem compare (usual : c.dialect.Usual mark) (left : l.StandsFor c mark s)
    (right : r.StandsFor c mark t) {op : Comparison} (same : r.kind = l.kind) {turned : Bool}
    {sql : String}
    (found : (if turned then c.compareFragments r op.swapped l else c.compareFragments l op r) =
      some sql) :
    ∃ e, Reads mark Operator.comparisonPower sql e ∧ e.Denotes c (.compare s op t) := by
  have typed : t.Typed c l.kind := same ▸ right.typed
  cases turned with
  | false =>
      obtain ⟨a, b, reads, denotesLeft, denotesRight⟩ :=
        left.compareFragments usual right same found
      exact ⟨_, reads,
        .compare left.regular right.regular left.typed typed denotesLeft denotesRight⟩
  | true =>
      obtain ⟨b, a, reads, denotesRight, denotesLeft⟩ :=
        right.compareFragments usual left same.symm found
      refine ⟨_, reads, fun scope env v mirrors evaluated => ?_⟩
      rw [← Expression.Denotes.compare left.regular right.regular left.typed typed denotesLeft
        denotesRight _ _ _ mirrors evaluated, Expression.eval, Expression.eval,
        Number.compare_swapped]

/-- Arithmetic on integers stands inside brackets. -/
theorem arithmetic? (usual : c.dialect.Usual mark) (left : l.StandsFor c mark s)
    (right : r.StandsFor c mark t) {op : Arithmetic} (noQuotient : op ≠ .div)
    (leftInt : l.kind = .int) (rightInt : r.kind = .int) {sql : String}
    (found : l.arithmetic? c.dialect op r = some sql) :
    ∃ inner e, sql = Text.bracketed inner ∧ Reads mark Operator.comparisonPower inner e ∧
      e.Denotes c (.arithmetic s op t) := by
  obtain ⟨a, readsLeft, denotesLeft⟩ := left.written
  obtain ⟨b, readsRight, denotesRight⟩ := right.operandText usual l
  have denotes := Expression.Denotes.arithmetic noQuotient left.regular right.regular denotesLeft
    denotesRight
  have joins : ∀ {o : Operator} {text : String} {e : Expression}, Reads mark o.power text e →
      o.power < operandPower → Reads mark o.power
        (spaced [text, o.text, Fragment.operandText c.dialect l r]) (o.apply e b) :=
    fun first weaker => .operation usual.isMark _ first (readsRight.mono weaker)
  simp only [Fragment.arithmetic?, codec, leftInt, Codec.ofKind, numericArithmetic?, rightInt,
    Kind.isNumeric, reduceCtorEq, false_and, if_false, Bool.not_true, Bool.false_eq_true, and_self,
    if_true] at found
  cases op with
  | add =>
      rw [usual.arithmetic] at found
      refine ⟨_, _, (Option.some.inj found).symm, ?_, denotes⟩
      exact (joins (readsLeft.mono (by decide)) (o := .integer .plus) (by decide)).mono (by decide)
  | sub =>
      rw [usual.arithmetic] at found
      refine ⟨_, _, (Option.some.inj found).symm, ?_, denotes⟩
      exact (joins (readsLeft.mono (by decide)) (o := .integer .minus) (by decide)).mono (by decide)
  | mul =>
      rw [usual.arithmetic] at found
      refine ⟨_, _, (Option.some.inj found).symm, ?_, denotes⟩
      exact (joins (readsLeft.mono (by decide)) (o := .integer .times) (by decide)).mono (by decide)
  | div => exact absurd rfl noQuotient
  | mod =>
      obtain ⟨inner, written, reads⟩ := usual.reads_floorModulo readsLeft readsRight
      rw [written] at found
      exact ⟨inner, _, (Option.some.inj found).symm, reads.mono (by decide), denotes⟩

end StandsFor

end Sql.Fragment

end RowQuery
