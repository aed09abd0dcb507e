import RowQuery.Proofs.Integral.Term

/-!
# Values of terms on integers and truth values

What operators do to integers, truth values and NULL, in terms of the numbers that stand
for them in SQL.  A term on integers and truth values has such a value again, and it is
NULL only when it reads from a row or when it is a NULL literal itself.
-/

namespace RowQuery

open RowQuery.Number

/-- The value of an operator on integers; quotients are no integers. -/
def Arithmetic.onIntegers? : Arithmetic → Int → Int → Option Int
  | .add, a, b => some (a + b)
  | .sub, a, b => some (a - b)
  | .mul, a, b => some (a * b)
  | .div, _, _ => none
  | .mod, a, b => if b = 0 then none else some (Int.fmod a b)

namespace Value

variable {a b v : Value}

/-- NULL, an integer or a truth value. -/
def IsNumber (v : Value) : Prop :=
  v = .null ∨ v.kind.isIntegral = true

theorem isNull_of_integral (kind : v.kind.isIntegral = true) : v.isNull = false := by
  cases v <;> first | rfl | cases kind

theorem fitInt_eq_ok {op : Arithmetic} {x : Int} (fits : fitInt op x = .ok v) :
    ∃ k, v = .int k ∧ x = k.toInt := by
  rw [fitInt] at fits
  cases word : word? x with
  | none =>
      rw [word] at fits
      cases fits
  | some k =>
      rw [word] at fits
      obtain rfl := Except.ok.inj fits
      exact ⟨k, rfl, (word?_eq_some_iff.1 word).symm⟩

theorem intArithmetic_eq_ok {op : Arithmetic} {i j : Int64} (noQuotient : op ≠ .div)
    (result : intArithmetic i op j = .ok v) :
    ∃ k, v = .int k ∧ op.onIntegers? i.toInt j.toInt = some k.toInt := by
  cases op with
  | add | sub | mul =>
      obtain ⟨k, rfl, same⟩ := fitInt_eq_ok result
      exact ⟨k, rfl, congrArg some same⟩
  | div => exact absurd rfl noQuotient
  | mod =>
      rw [intArithmetic] at result
      split at result
      · cases result
      · rename_i nonzero
        rw [intRemainder] at result
        split at result
        · cases result
        · obtain ⟨k, rfl, same⟩ := fitInt_eq_ok result
          have divisor : j.toInt ≠ 0 := by
            rwa [← Int64.toInt_zero, Ne, Int64.toInt_inj]
          exact ⟨k, rfl, by rw [Arithmetic.onIntegers?, if_neg divisor, same]⟩

/-- Arithmetic has a result on integers only. -/
theorem arithmetic_eq_ok {op : Arithmetic} (left : a.kind.isIntegral = true)
    (right : b.kind.isIntegral = true) (noQuotient : op ≠ .div)
    (result : a.arithmetic op b = .ok v) :
    ∃ i j k, a = .int i ∧ b = .int j ∧ v = .int k ∧
      op.onIntegers? i.toInt j.toInt = some k.toInt := by
  cases a with
  | int i =>
      cases b with
      | int j =>
          simp only [Value.arithmetic] at result
          obtain ⟨k, rfl, same⟩ := intArithmetic_eq_ok noQuotient result
          exact ⟨i, j, k, rfl, rfl, rfl, same⟩
      | bool j => simp [Value.arithmetic] at result
      | _ => cases right
  | bool i =>
      cases b with
      | int j | bool j => simp [Value.arithmetic] at result
      | _ => cases right
  | _ => cases left

theorem negate_eq_ok (operand : a.kind.isIntegral = true) (result : a.negate = .ok v) :
    ∃ i k, a = .int i ∧ v = .int k ∧ k.toInt = -i.toInt := by
  cases a with
  | int i =>
      rw [negate] at result
      cases word : word? (-i.toInt) with
      | none =>
          rw [word] at result
          cases result
      | some k =>
          rw [word] at result
          obtain rfl := Except.ok.inj result
          exact ⟨i, k, rfl, rfl, word?_eq_some_iff.1 word⟩
  | bool b => cases result
  | _ => cases operand

/-- Integers and truth values compare as the numbers that stand for them. -/
theorem compare_number? (op : Comparison) (left : a.kind.isIntegral = true)
    (same : b.kind = a.kind) :
    Sql.Number.compare op a.number? b.number? = some (op.holds (a.compare? b)) := by
  cases a with
  | int i =>
      cases b with
      | int j => rfl
      | _ => cases same
  | bool i =>
      cases b with
      | bool j => cases i <;> cases j <;> cases op <;> rfl
      | _ => cases same
  | _ => cases left

theorem compareBy_eq (op : Comparison) (left : a.kind.isIntegral = true)
    (same : b.kind = a.kind) : a.compareBy op b = .ok (op.holds (a.compare? b)) := by
  have kinds : a.isNull = false ∧ b.isNull = false ∧ op.accepts a.kind b.kind = true := by
    rw [same]
    cases a with
    | int i | bool i => cases b <;> first | exact ⟨rfl, rfl, rfl⟩ | cases same
    | _ => cases left
  rw [compareBy, kinds.1, kinds.2.1, kinds.2.2]
  rfl

end Value

namespace Term

variable {c : CompileContext} {scope : Scope} {v : Value}

/-- A conjunction is a truth value unless it or one of its parts is left open. -/
theorem evalAll_result {items : List Term} {undecided : Bool}
    (evaluated : evalAll scope undecided items = .ok v) :
    v.kind = .bool ∨ v = .null ∧ (undecided = true ∨ ∃ t ∈ items, t.eval scope = .ok .null) := by
  induction items generalizing undecided with
  | nil =>
      rw [evalAll] at evaluated
      obtain rfl := Except.ok.inj evaluated
      cases undecided <;> simp [Value.kind]
  | cons item items ih =>
      rw [evalAll] at evaluated
      obtain ⟨value, itemEq, rest⟩ := Except.bind_eq_ok_iff.1 evaluated
      split at rest
      · rename_i isNull
        obtain rfl : value = .null := by cases value <;> first | rfl | cases isNull
        rcases ih rest with kind | ⟨null, -⟩
        · exact .inl kind
        · exact .inr ⟨null, .inr ⟨item, by simp, itemEq⟩⟩
      · split at rest
        · rcases ih rest with kind | ⟨null, before | ⟨t, member, reason⟩⟩
          · exact .inl kind
          · exact .inr ⟨null, .inl before⟩
          · exact .inr ⟨null, .inr ⟨t, by simp [member], reason⟩⟩
        · obtain rfl := Except.ok.inj rest
          exact .inl rfl

/-- A disjunction is a truth value unless it or one of its parts is left open. -/
theorem evalAny_result {items : List Term} {undecided : Bool}
    (evaluated : evalAny scope undecided items = .ok v) :
    v.kind = .bool ∨ v = .null ∧ (undecided = true ∨ ∃ t ∈ items, t.eval scope = .ok .null) := by
  induction items generalizing undecided with
  | nil =>
      rw [evalAny] at evaluated
      obtain rfl := Except.ok.inj evaluated
      cases undecided <;> simp [Value.kind]
  | cons item items ih =>
      rw [evalAny] at evaluated
      obtain ⟨value, itemEq, rest⟩ := Except.bind_eq_ok_iff.1 evaluated
      split at rest
      · rename_i isNull
        obtain rfl : value = .null := by cases value <;> first | rfl | cases isNull
        rcases ih rest with kind | ⟨null, -⟩
        · exact .inl kind
        · exact .inr ⟨null, .inr ⟨item, by simp, itemEq⟩⟩
      · split at rest
        · obtain rfl := Except.ok.inj rest
          exact .inl rfl
        · rcases ih rest with kind | ⟨null, before | ⟨t, member, reason⟩⟩
          · exact .inl kind
          · exact .inr ⟨null, .inl before⟩
          · exact .inr ⟨null, .inr ⟨t, by simp [member], reason⟩⟩

/-- Values of terms, each with whether it comes from a row. -/
def sourced (ts : List Term) (vs : List Value) : List (Value × Bool) :=
  vs.zip (ts.map readsRow)

@[simp]
theorem sourced_cons (t : Term) (ts : List Term) (v : Value) (vs : List Value) :
    sourced (t :: ts) (v :: vs) = (v, t.readsRow) :: sourced ts vs :=
  rfl

/-- What a membership test evaluates to, in terms of its members. -/
theorem Lists.eval_member {collection item : Term} {members : List Term} {negated : Bool}
    (lists : Lists c collection members) (arguments : scope.arguments = c.arguments)
    (evaluated : (member item collection negated).eval scope = .ok v) :
    ∃ a vs, item.eval scope = .ok a ∧ List.Forall₂ (fun t v => t.eval scope = .ok v) members vs ∧
      v = negateIf negated (amongMembers (isUnknown item a) a (sourced members vs)) := by
  rw [eval] at evaluated
  obtain ⟨a, itemEq, rest⟩ := Except.bind_eq_ok_iff.1 evaluated
  obtain ⟨whole, collectionEq, rest⟩ := Except.bind_eq_ok_iff.1 rest
  obtain ⟨found, foundEq, ended⟩ := Except.bind_eq_ok_iff.1 rest
  obtain rfl := Except.ok.inj ended
  cases lists with
  | tuple =>
      rw [eval] at collectionEq
      obtain ⟨vs, each, ended⟩ := Except.bind_eq_ok_iff.1 collectionEq
      obtain rfl := Except.ok.inj ended
      obtain rfl := Except.ok.inj foundEq
      exact ⟨a, vs, itemEq, evalItems_eq_ok_iff.1 each, rfl⟩
  | @values _ values literal =>
      rw [literal.eval_eq arguments] at collectionEq
      obtain rfl := Except.ok.inj collectionEq
      obtain rfl := Except.ok.inj foundEq
      refine ⟨a, values, itemEq, ?_, ?_⟩
      · rw [List.forall₂_map_left_iff]
        exact List.forall₂_same.2 fun v _ => by rw [eval]
      · have origins : memberOrigins collection values =
            (values.map constant).map readsRow := by
          rw [List.map_map]
          cases literal <;> exact List.map_congr_left fun _ _ => rfl
        rw [origins, sourced]

/-- A listed member that reads from a row makes its collection do so. -/
theorem Lists.readsRow_of_mem {collection : Term} {members : List Term}
    (lists : Lists c collection members) (member : true ∈ members.map readsRow) :
    collection.readsRow = true := by
  obtain ⟨t, member, reads⟩ := List.mem_map.1 member
  cases lists with
  | tuple =>
      rw [readsRow_items rfl, List.any_eq_true]
      exact ⟨t, member, reads⟩
  | values literal =>
      obtain ⟨v, -, rfl⟩ := List.mem_map.1 member
      cases reads

theorem amongMembers_result {unknown : Bool} {a : Value} {members : List (Value × Bool)}
    (answer : amongMembers unknown a members = v) :
    v.kind = .bool ∨ v = .null ∧ (unknown = true ∨ ∃ w, (w, true) ∈ members ∧ w = .null) := by
  unfold amongMembers at answer
  subst answer
  split
  · rename_i itemUnknown
    split
    · exact .inl rfl
    · exact .inr ⟨rfl, .inl itemUnknown⟩
  · split
    · exact .inl rfl
    · split
      · rename_i unknown
        obtain ⟨⟨w, ofRow⟩, member, both⟩ := List.any_eq_true.1 unknown
        obtain ⟨isNull, rfl⟩ := Bool.and_eq_true_iff.1 both
        refine .inr ⟨rfl, .inr ⟨w, member, ?_⟩⟩
        cases w <;> first | rfl | cases isNull
      · exact .inl rfl

/-- The value of a term on integers and truth values. -/
structure Yields (c : CompileContext) (n : Bool) (t : Term) (v : Value) : Prop where
  number : v.IsNumber
  /-- NULL comes from rows unless it stands in the term. -/
  origin : v = .null → t.readsRow = true ∨ n = true ∧ Literal c t .null

namespace Yields

variable {n : Bool} {t : Term}

theorem of_kind (kind : v.kind.isIntegral = true) : Yields c n t v :=
  ⟨.inr kind, by rintro rfl; cases kind⟩

theorem of_reads (reads : t.readsRow = true) : Yields c n t .null :=
  ⟨.inl rfl, fun _ => .inl reads⟩

/-- A value that is a truth value, or NULL from a row. -/
theorem of_truth (result : v.kind = .bool ∨ v = .null ∧ t.readsRow = true) : Yields c n t v := by
  rcases result with kind | ⟨rfl, reads⟩
  · exact of_kind (by rw [kind]; rfl)
  · exact of_reads reads

theorem readsRow (yields : Yields c false t .null) : t.readsRow = true := by
  rcases yields.origin rfl with reads | ⟨impossible, -⟩
  · exact reads
  · cases impossible

theorem kind (yields : Yields c false t v) (known : isUnknown t v = false) :
    v.kind.isIntegral = true := by
  rcases yields.number with rfl | kind
  · rw [isUnknown, yields.readsRow] at known
    cases known
  · exact kind

/-- The value of a conjunction or a disjunction. -/
theorem of_parts {items : List Term} (arity : t.arity = arities items)
    (each : ∀ item ∈ items, ∀ {w : Value}, item.eval scope = .ok w → Yields c false item w)
    (result : v.kind = .bool ∨
      v = .null ∧ (false = true ∨ ∃ item ∈ items, item.eval scope = .ok .null)) :
    Yields c n t v := by
  refine of_truth ?_
  rcases result with kind | ⟨null, impossible | ⟨item, member, reason⟩⟩
  · exact .inl kind
  · cases impossible
  · right
    rw [readsRow_items arity, List.any_eq_true]
    exact ⟨null, item, member, (each item member reason).readsRow⟩

end Yields

theorem readsRow_of_isUnknown {t : Term} (unknown : isUnknown t v = true) : t.readsRow = true :=
  (Bool.and_eq_true_iff.1 unknown).2

theorem kind_of_map_bool {answer : Outcome Bool} (result : answer.map Value.bool = .ok v) :
    v.kind = .bool := by
  obtain ⟨b, -, rfl⟩ := Except.map_eq_ok_iff.1 result
  rfl

section Operators

variable {n : Bool} {l r inner : Term}

theorem yields_arithmetic {op : Arithmetic} (noQuotient : op ≠ .div)
    (left : ∀ {w : Value}, l.eval scope = .ok w → Yields c false l w)
    (right : ∀ {w : Value}, r.eval scope = .ok w → Yields c false r w)
    (evaluated : (arithmetic l op r).eval scope = .ok v) : Yields c n (arithmetic l op r) v := by
  have reads : (arithmetic l op r).readsRow = (l.readsRow || r.readsRow) := readsRow_join rfl
  rw [eval] at evaluated
  obtain ⟨a, leftEq, rest⟩ := Except.bind_eq_ok_iff.1 evaluated
  split at rest
  · rename_i unknown
    obtain rfl := Except.ok.inj rest
    exact .of_reads (by rw [reads, readsRow_of_isUnknown unknown, Bool.true_or])
  · rename_i leftKnown
    obtain ⟨b, rightEq, rest⟩ := Except.bind_eq_ok_iff.1 rest
    split at rest
    · rename_i unknown
      obtain rfl := Except.ok.inj rest
      exact .of_reads (by rw [reads, readsRow_of_isUnknown unknown, Bool.or_true])
    · rename_i rightKnown
      obtain ⟨-, -, k, -, -, rfl, -⟩ :=
        Value.arithmetic_eq_ok ((left leftEq).kind (Bool.eq_false_iff.2 leftKnown))
          ((right rightEq).kind (Bool.eq_false_iff.2 rightKnown)) noQuotient rest
      exact .of_kind rfl

theorem yields_negate (operand : ∀ {w : Value}, inner.eval scope = .ok w → Yields c false inner w)
    (evaluated : (negate inner).eval scope = .ok v) : Yields c n (negate inner) v := by
  rw [eval] at evaluated
  obtain ⟨a, innerEq, rest⟩ := Except.bind_eq_ok_iff.1 evaluated
  split at rest
  · rename_i unknown
    obtain rfl := Except.ok.inj rest
    exact .of_reads ((readsRow_same rfl).trans (readsRow_of_isUnknown unknown))
  · rename_i known
    obtain ⟨-, k, -, rfl, -⟩ :=
      Value.negate_eq_ok ((operand innerEq).kind (Bool.eq_false_iff.2 known)) rest
    exact .of_kind rfl

/-- A comparison is a truth value, or unknown because of an operand that reads a row. -/
theorem yields_compare {op : Comparison} (evaluated : (compare l op r).eval scope = .ok v) :
    Yields c n (compare l op r) v := by
  have reads : (compare l op r).readsRow = (l.readsRow || r.readsRow) := readsRow_join rfl
  rw [eval] at evaluated
  obtain ⟨a, -, rest⟩ := Except.bind_eq_ok_iff.1 evaluated
  obtain ⟨b, -, rest⟩ := Except.bind_eq_ok_iff.1 rest
  rw [compareValues] at rest
  split at rest
  · rename_i unknown
    obtain rfl := Except.ok.inj rest
    rcases Bool.or_eq_true_iff.1 (Bool.and_eq_true_iff.1 unknown).2 with unknown | unknown
    · exact .of_reads (by rw [reads, readsRow_of_isUnknown unknown, Bool.true_or])
    · exact .of_reads (by rw [reads, readsRow_of_isUnknown unknown, Bool.or_true])
  · exact .of_truth (.inl (kind_of_map_bool rest))

theorem yields_member {negated : Bool} {item collection : Term} {members : List Term}
    (lists : Lists c collection members) (arguments : scope.arguments = c.arguments)
    (evaluated : (member item collection negated).eval scope = .ok v) :
    Yields c n (member item collection negated) v := by
  have reads : (member item collection negated).readsRow =
      (item.readsRow || collection.readsRow) := readsRow_join rfl
  obtain ⟨a, vs, itemEq, eachEq, rfl⟩ := lists.eval_member arguments evaluated
  refine .of_truth ?_
  rcases amongMembers_result rfl with kind | ⟨null, reason⟩
  · left
    cases found : amongMembers (isUnknown item a) a (sourced members vs) with
    | bool b => rfl
    | _ =>
        rw [found] at kind
        cases kind
  · right
    refine ⟨by rw [null]; rfl, ?_⟩
    rcases reason with unknown | ⟨w, member, -⟩
    · rw [reads, readsRow_of_isUnknown unknown, Bool.true_or]
    · rw [reads, lists.readsRow_of_mem (List.of_mem_zip member).2, Bool.or_true]

theorem yields_not (operand : ∀ {w : Value}, inner.eval scope = .ok w → Yields c false inner w)
    (evaluated : (not inner).eval scope = .ok v) : Yields c n (not inner) v := by
  rw [eval] at evaluated
  obtain ⟨a, innerEq, ended⟩ := Except.bind_eq_ok_iff.1 evaluated
  obtain rfl := Except.ok.inj ended
  rcases (operand innerEq).number with rfl | kind
  · exact .of_reads ((readsRow_same rfl).trans (operand innerEq).readsRow)
  · refine .of_truth (.inl ?_)
    cases a <;> first | rfl | cases kind

end Operators

/-- A term on integers and truth values has such a value. -/
theorem Integral.yields {n : Bool} {t : Term} (integral : Integral c n t)
    {env : Sql.Expression.Environment} (mirrors : c.Mirrors scope env) {v : Value}
    (evaluated : t.eval scope = .ok v) : Yields c n t v := by
  induction integral generalizing v with
  | null literal =>
      rw [literal.eval_eq mirrors.arguments] at evaluated
      obtain rfl := Except.ok.inj evaluated
      exact ⟨.inl rfl, fun _ => .inr ⟨rfl, literal⟩⟩
  | literal literal kind =>
      rw [literal.eval_eq mirrors.arguments] at evaluated
      obtain rfl := Except.ok.inj evaluated
      exact .of_kind kind
  | column bound found kind =>
      rw [eval] at evaluated
      rcases mirrors.typed bound found kind evaluated with rfl | same
      · exact .of_reads (by simp [readsRow, arity])
      · exact .of_kind (same ▸ kind)
  | arithmetic noQuotient _ _ left right => exact yields_arithmetic noQuotient left right evaluated
  | negate _ operand => exact yields_negate operand evaluated
  | compare => exact yields_compare evaluated
  | among lists => exact yields_member lists mirrors.arguments evaluated
  | all _ each =>
      rw [eval] at evaluated
      exact .of_parts rfl (fun item member => each item member) (evalAll_result evaluated)
  | any _ each =>
      rw [eval] at evaluated
      exact .of_parts rfl (fun item member => each item member) (evalAny_result evaluated)
  | not _ operand => exact yields_not operand evaluated

end Term

end RowQuery
