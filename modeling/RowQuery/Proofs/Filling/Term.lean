import RowQuery.Proofs.Filling.Function
import RowQuery.Proofs.Folding.Term
import RowQuery.Proofs.Integral.Term

/-!
# Terms on rows whose NULLs are filled in

A term without NULL in its constants and arguments meets NULL only where it comes from a row, and
there it is unknown.  So a definite answer does not depend on what the unknown values are, with
one exception: a list with an unknown item counts as known, and a test whether it is equal to
another list is answered although it may turn out either way.
-/

namespace RowQuery

open Value

/-- The second row is the first one with values in the place of some of its NULLs. -/
def Row.FillsTo (row row' : Row) : Prop :=
  List.Forall₂ (fun cell cell' => cell'.1 = cell.1 ∧ (cell.2 = .null ∨ cell'.2 = cell.2)) row row'

namespace Scope

/-- The rows of the second scope are those of the first one with values in the place of some of
their NULLs. -/
structure FillsTo (scope scope' : Scope) : Prop where
  rows : List.Forall₂ Row.FillsTo scope.rows scope'.rows
  arguments : scope'.arguments = scope.arguments
  functions : scope'.functions = scope.functions

/-- Nothing but the rows gives NULL. -/
structure OnlyRowsNull (scope : Scope) : Prop where
  arguments : ∀ pair ∈ scope.arguments, pair.2.Filled
  functions : scope.functions.Usual

end Scope

namespace Term

/-- A term is another one or occurs in it. -/
def Within (s t : Term) : Prop :=
  s = t ∨ s.Inside t

theorem Within.of_part {s u t : Term} (within : s.Within u) (among : u ∈ t.parts) : s.Within t := by
  rcases within with rfl | inside
  · exact .inr (.part among)
  · exact .inr (.deeper inside among)

/-- No NULL stands in the constants of the term. -/
def Filled (t : Term) : Prop :=
  ∀ v, (constant v).Within t → v.Filled

theorem Filled.part {s t : Term} (filled : t.Filled) (among : s ∈ t.parts) : s.Filled :=
  fun v within => filled v (within.of_part among)

theorem Within.trans {s u t : Term} (first : s.Within u) (second : u.Within t) : s.Within t := by
  rcases second with rfl | inside
  · exact first
  · induction inside with
    | part among => exact first.of_part among
    | deeper _ among ih => exact ih.of_part among

theorem Filled.within {s t : Term} (filled : t.Filled) (within : s.Within t) : s.Filled :=
  fun v deeper => filled v (deeper.trans within)

theorem Filled.of_parts {t : Term} (own : ∀ v, t = constant v → v.Filled)
    (each : ∀ s ∈ t.parts, s.Filled) : t.Filled := by
  rintro v (same | inside)
  · exact own v same.symm
  · obtain ⟨u, among, within⟩ := inside_iff.1 inside
    exact each u among v within

/-- What a part reads the whole reads. -/
theorem readsRow_of_part {s t : Term} (among : s ∈ t.parts) (reads : s.readsRow = true) :
    t.readsRow = true := by
  have someItem {items : List Term} (among : s ∈ items) : 0 < arities items :=
    arities_pos_iff.2 ⟨s, among, reads⟩
  simp only [readsRow, decide_eq_true_eq] at reads ⊢
  cases t <;> simp only [parts, List.mem_cons, List.not_mem_nil, or_false] at among <;> rw [arity]
  case field | not | negate | named => exact among ▸ reads
  case subscript | compare | member | arithmetic => rcases among with rfl | rfl <;> omega
  case tuple | call | all | any => exact someItem among
  case method =>
    rcases among with rfl | among
    · omega
    · have := someItem among
      omega

section

variable (scope : Scope)

/-- A test that is answered although values that are unknown in its operands may turn the answer:
of two lists that differ but may be equal, or of an item that is none of the members but may be
equal to one of them. -/
inductive Blind : Term → Prop
  | compared {l r : Term} {op : Comparison} {a b : Value} (left : l.eval scope = .ok a)
      (right : r.eval scope = .ok b) (known : a ≠ .null) (known' : b ≠ .null)
      (equality : op.isEquality = true) (mayEqual : a.mayEqual b = true)
      (differ : a.compare? b ≠ some .eq) : Blind (compare l op r)
  | contained {item collection : Term} {negated : Bool} {a : Value} {members : List Value}
      (needle : item.eval scope = .ok a) (whole : collection.eval scope = .ok (.list members))
      (known : a ≠ .null) (noNull : .null ∉ members)
      (absent : ∀ m ∈ members, m.looseEq a = false) (mayEqual : ∃ m ∈ members, m.mayEqual a = true) :
      Blind (member item collection negated)

/-- The parts that hand an unknown value on.  A list with an unknown item is known, and a
conjunction or a disjunction may be settled by another part. -/
def strictParts : Term → List Term
  | tuple _ | all _ | any _ => []
  | t => t.parts

/-- The term reads a NULL of a row and hands it on. -/
inductive HandsNull : Term → Prop
  | column {index : Nat} {name : String} (null : scope.column index name = .ok .null) :
      HandsNull (field (param index) name)
  | part {s t : Term} (among : s ∈ t.strictParts) (hands : HandsNull s) : HandsNull t

end

theorem mem_parts_of_strict {s t : Term} (among : s ∈ t.strictParts) : s ∈ t.parts := by
  cases t <;> first | exact among | cases among

variable {scope scope' : Scope}

/-! ## Terms that read no row -/

theorem isUnknown_of_known (t : Term) {v : Value} (known : v ≠ .null) : isUnknown t v = false := by
  cases v <;> first | rfl | exact absurd rfl known

theorem isLiteralNull_of_known (t : Term) {v : Value} (known : v ≠ .null) :
    isLiteralNull t v = false := by
  cases v <;> first | rfl | exact absurd rfl known

/-- The value of an operand that is not unknown. -/
theorem known_of_evalKnown {items : List Term} {vs : List Value}
    (ended : evalKnown scope items = .ok (some vs)) :
    List.Forall₂ (fun t v => t.eval scope = .ok v ∧ isUnknown t v = false) items vs := by
  induction items generalizing vs with
  | nil =>
      obtain rfl := Option.some.inj (Except.ok.inj ended)
      exact .nil
  | cons item items ih =>
      rw [evalKnown] at ended
      obtain ⟨v, first, ended⟩ := Except.bind_eq_ok_iff.1 ended
      split at ended
      · cases ended
      · rename_i known
        obtain ⟨known', others, ended⟩ := Except.bind_eq_ok_iff.1 ended
        obtain ⟨later, rfl, rfl⟩ := Option.map_eq_some_iff.1 (Except.ok.inj ended)
        exact .cons ⟨first, by simpa using known⟩ (ih others)

/-- Some operand is unknown. -/
theorem unknown_of_evalKnown {items : List Term} (ended : evalKnown scope items = .ok none) :
    ∃ s ∈ items, s.eval scope = .ok .null ∧ isUnknown s .null = true := by
  induction items with
  | nil => cases ended
  | cons item items ih =>
      rw [evalKnown] at ended
      obtain ⟨v, first, ended⟩ := Except.bind_eq_ok_iff.1 ended
      split at ended
      · rename_i unknown
        obtain rfl := null_of_isUnknown unknown
        exact ⟨item, by simp, first, unknown⟩
      · obtain ⟨known', others, ended⟩ := Except.bind_eq_ok_iff.1 ended
        have none_ := Option.map_eq_none_iff.1 (Except.ok.inj ended)
        obtain ⟨s, among, null⟩ := ih (none_ ▸ others)
        exact ⟨s, by simp [among], null⟩

theorem not_null_of_evalAll {items : List Term} {v : Value}
    (each : ∀ s ∈ items, s.eval scope ≠ .ok .null) (ended : evalAll scope false items = .ok v) :
    v ≠ .null := by
  induction items with
  | nil =>
      obtain rfl := Except.ok.inj ended
      nofun
  | cons item items ih =>
      rw [List.forall_mem_cons] at each
      rw [evalAll] at ended
      obtain ⟨w, first, ended⟩ := Except.bind_eq_ok_iff.1 ended
      split at ended
      · rename_i isNull
        exact absurd (isNull_iff.1 isNull ▸ first) each.1
      · split at ended
        · exact ih each.2 ended
        · obtain rfl := Except.ok.inj ended
          nofun

theorem not_null_of_evalAny {items : List Term} {v : Value}
    (each : ∀ s ∈ items, s.eval scope ≠ .ok .null) (ended : evalAny scope false items = .ok v) :
    v ≠ .null := by
  induction items with
  | nil =>
      obtain rfl := Except.ok.inj ended
      nofun
  | cons item items ih =>
      rw [List.forall_mem_cons] at each
      rw [evalAny] at ended
      obtain ⟨w, first, ended⟩ := Except.bind_eq_ok_iff.1 ended
      split at ended
      · rename_i isNull
        exact absurd (isNull_iff.1 isNull ▸ first) each.1
      · split at ended
        · obtain rfl := Except.ok.inj ended
          nofun
        · exact ih each.2 ended

theorem not_null_of_compareValues {l r : Term} {op : Comparison} {a b v : Value}
    (known : a ≠ .null) (known' : b ≠ .null) (ended : compareValues l r op a b = .ok v) :
    v ≠ .null := by
  unfold compareValues at ended
  rw [isUnknown_of_known l known, isUnknown_of_known r known'] at ended
  simp only [Bool.or_self, Bool.and_false, Bool.false_eq_true, if_false] at ended
  obtain ⟨answer, -, rfl⟩ := Except.map_eq_ok_iff.1 ended
  nofun

theorem not_null_of_membership {item collection : Term} {a w v : Value} (known : a ≠ .null)
    (filled : w.Filled) (ended : membership item collection a w = .ok v) : v ≠ .null := by
  unfold membership at ended
  rw [isUnknown_of_known collection filled.not_null, isUnknown_of_known item known] at ended
  simp only [Bool.false_eq_true, if_false] at ended
  split at ended
  · rename_i members
    obtain rfl := Except.ok.inj ended
    have noNull : ∀ pair ∈ members.zip (memberOrigins collection members),
        (pair.1.isNull && pair.2) = false := by
      intro pair among
      cases filled with
      | list each =>
          have known := (each pair.1 (List.of_mem_zip among).1).not_null
          rw [Bool.eq_false_iff.2 (mt isNull_iff.1 known), Bool.false_and]
      | single _ _ notList => exact absurd rfl notList
    unfold amongMembers
    rw [if_neg Bool.false_ne_true]
    split
    · nofun
    · rw [if_neg]
      · nofun
      · exact Bool.eq_false_iff.1 (List.any_eq_false.2 fun pair among => by simp [noNull pair among])
  · obtain ⟨found, -, rfl⟩ := Except.map_eq_ok_iff.1 ended
    nofun

theorem negateIf_ne_null {v : Value} (negated : Bool) (known : v ≠ .null) :
    negateIf negated v ≠ .null := by
  cases v <;> first | exact absurd rfl known | nofun

theorem negation_ne_null {v : Value} (known : v ≠ .null) : negation v ≠ .null := by
  intro null
  cases v with
  | null => exact known rfl
  | _ => cases null

/-- What is put together from parts without NULL holds none, unless it is a column. -/
theorem filled_of_parts (only : scope.OnlyRowsNull) {t : Term} (filled : t.Filled)
    (closed : t.readsRow = false) (each : ∀ s ∈ t.parts, ∀ w, s.eval scope = .ok w → w.Filled)
    {v : Value} (ended : t.eval scope = .ok v) : v.Filled := by
  have notNull : ∀ s ∈ t.parts, s.eval scope ≠ .ok .null :=
    fun s among null => (each s among _ null).not_null rfl
  cases t with
  | param index => cases ended
  | field target name =>
      have noColumn : ∀ i, target ≠ param i := by
        rintro i rfl
        cases closed
      rw [eval_field _ noColumn] at ended
      obtain ⟨a, aEq, ended⟩ := Except.bind_eq_ok_iff.1 ended
      rw [isUnknown_of_known _ (each target (by simp [parts]) a aEq).not_null] at ended
      exact filled_field ended
  | constant value =>
      obtain rfl := Except.ok.inj ended
      exact filled value (.inl rfl)
  | argument name =>
      change argumentValue scope.arguments name = .ok v at ended
      unfold argumentValue at ended
      split at ended
      · rename_i value found
        obtain rfl := Except.ok.inj ended
        exact only.arguments _ (Keyed.mem_of_get? found)
      · cases ended
  | subscript target key =>
      rw [eval] at ended
      obtain ⟨a, aEq, ended⟩ := Except.bind_eq_ok_iff.1 ended
      have whole := each target (by simp [parts]) a aEq
      rw [isUnknown_of_known _ whole.not_null] at ended
      obtain ⟨b, bEq, ended⟩ := Except.bind_eq_ok_iff.1 ended
      rw [isUnknown_of_known _ (each key (by simp [parts]) b bEq).not_null] at ended
      exact filled_item whole ended
  | tuple items =>
      rw [eval] at ended
      obtain ⟨vs, evaluated, ended⟩ := Except.bind_eq_ok_iff.1 ended
      obtain rfl := Except.ok.inj ended
      refine .list fun w among => ?_
      obtain ⟨s, among', wEq⟩ := (evalItems_eq_ok_iff.1 evaluated).flip.exists_of_mem among
      exact each s among' w wEq
  | call name operands =>
      rw [eval] at ended
      obtain ⟨f, found, ended⟩ := Except.bind_eq_ok_iff.1 ended
      obtain ⟨known, evaluated, ended⟩ := Except.bind_eq_ok_iff.1 ended
      cases known with
      | some vs => exact (only.functions.functions name f (function_eq_ok found)).settled.filled _ _ _ ended
      | none =>
          obtain ⟨s, among, null, -⟩ := unknown_of_evalKnown evaluated
          exact absurd null (notNull s among)
  | method target name operands =>
      rw [eval_method] at ended
      obtain ⟨f, found, ended⟩ := Except.bind_eq_ok_iff.1 ended
      obtain ⟨known, evaluated, ended⟩ := Except.bind_eq_ok_iff.1 ended
      cases known with
      | some vs => exact (only.functions.methods name f (method_eq_ok found)).settled.filled _ _ _ ended
      | none =>
          obtain ⟨s, among, null, -⟩ := unknown_of_evalKnown evaluated
          exact absurd null (notNull s among)
  | compare l op r =>
      rw [eval] at ended
      obtain ⟨a, aEq, ended⟩ := Except.bind_eq_ok_iff.1 ended
      obtain ⟨b, bEq, ended⟩ := Except.bind_eq_ok_iff.1 ended
      have left := (each l (by simp [parts]) a aEq).not_null
      have right := (each r (by simp [parts]) b bEq).not_null
      exact .of_fits_bool (fits_compareValues ended) (not_null_of_compareValues left right ended)
  | member item collection negated =>
      rw [eval] at ended
      obtain ⟨a, aEq, ended⟩ := Except.bind_eq_ok_iff.1 ended
      obtain ⟨w, wEq, ended⟩ := Except.bind_eq_ok_iff.1 ended
      obtain ⟨found, among, ended⟩ := Except.bind_eq_ok_iff.1 ended
      obtain rfl := Except.ok.inj ended
      have needle := (each item (by simp [parts]) a aEq).not_null
      have whole := each collection (by simp [parts]) w wEq
      exact .of_fits_bool (fits_negateIf negated (fits_membership among))
        (negateIf_ne_null negated (not_null_of_membership needle whole among))
  | arithmetic l op r =>
      rw [eval] at ended
      obtain ⟨a, aEq, ended⟩ := Except.bind_eq_ok_iff.1 ended
      rw [isUnknown_of_known _ (each l (by simp [parts]) a aEq).not_null] at ended
      obtain ⟨b, bEq, ended⟩ := Except.bind_eq_ok_iff.1 ended
      rw [isUnknown_of_known _ (each r (by simp [parts]) b bEq).not_null] at ended
      exact filled_arithmetic ended
  | all items =>
      rw [eval] at ended
      exact .of_fits_bool (fits_evalAll ended) (not_null_of_evalAll notNull ended)
  | any items =>
      rw [eval] at ended
      exact .of_fits_bool (fits_evalAny ended) (not_null_of_evalAny notNull ended)
  | not inner =>
      rw [eval] at ended
      obtain ⟨a, aEq, ended⟩ := Except.bind_eq_ok_iff.1 ended
      obtain rfl := Except.ok.inj ended
      have known := (each inner (by simp [parts]) a aEq).not_null
      exact .of_fits_bool (fits_negation a) (negation_ne_null known)
  | negate inner =>
      rw [eval] at ended
      obtain ⟨a, aEq, ended⟩ := Except.bind_eq_ok_iff.1 ended
      rw [isUnknown_of_known _ (each inner (by simp [parts]) a aEq).not_null] at ended
      exact filled_negate ended
  | named inner name =>
      rw [eval] at ended
      exact each inner (by simp [parts]) v ended

/-- What is evaluated without a row holds no NULL. -/
theorem filled_of_closed (only : scope.OnlyRowsNull) (t : Term) (filled : t.Filled)
    (closed : t.readsRow = false) {v : Value} (ended : t.eval scope = .ok v) : v.Filled := by
  refine filled_of_parts only filled closed (fun s among w evaluated => ?_) ended
  have closed' : s.readsRow = false :=
    Bool.eq_false_iff.2 fun reads => by rw [readsRow_of_part among reads] at closed; cases closed
  exact filled_of_closed only s (filled.part among) closed' evaluated
termination_by t
decreasing_by exact sizeOf_lt_of_mem_parts among

/-- A NULL is unknown wherever it turns up. -/
theorem isUnknown_eq (only : scope.OnlyRowsNull) {t : Term} (filled : t.Filled) {v : Value}
    (ended : t.eval scope = .ok v) : isUnknown t v = v.isNull ∧ isLiteralNull t v = false := by
  by_cases null : v = .null
  · obtain rfl := null
    have reads : t.readsRow = true := by
      by_contra closed
      exact (filled_of_closed only t filled (by simpa using closed) ended).not_null rfl
    simp [isUnknown, isLiteralNull, reads, isNull]
  · rw [isUnknown_of_known t null, isLiteralNull_of_known t null,
      Bool.eq_false_iff.2 (mt isNull_iff.1 null)]
    exact ⟨rfl, rfl⟩

end Term

end RowQuery
