import RowQuery.Compile
import RowQuery.Proofs.Steps

/-!
# What compiled pieces are made of

The pieces that come out of the steps of the compiler when these end without an
obstacle.  Whatever is said of a step is derived from these lemmas.
-/

namespace RowQuery

theorem Piece.exactly_eq_ok_iff {p q : Piece} : p.exactly = .ok q ↔ p = q ∧ q.exact = true := by
  unfold exactly
  constructor
  · intro ended
    split at ended
    · rename_i exactness
      obtain rfl := Except.ok.inj ended
      exact ⟨rfl, exactness⟩
    · cases ended
  · rintro ⟨rfl, exactness⟩
    rw [if_pos exactness]

theorem Walk.ofOutcome_eq_ok_iff {α : Type} {outcome : Outcome α} {a : α} :
    Walk.ofOutcome outcome = .ok a ↔ outcome = .ok a := by
  cases outcome <;> simp [ofOutcome]

theorem Walk.ofOption_eq_ok_iff {α : Type} {option : Option α} {a : α} :
    Walk.ofOption option = .ok a ↔ option = some a := by
  cases option <;> simp [ofOption]

namespace Sql.Fragment

variable {f : Fragment}

theorem isNull_of_constant {w : Value} (constant : f.constant = some w) : f.isNull = w.isNull := by
  rw [isNull, constant]

theorem isNull_of_open (constant : f.constant = none) : f.isNull = false := by
  rw [isNull, constant]

end Sql.Fragment

namespace CompileContext

variable {c : CompileContext} {p : Piece}

/-- The condition that always or never holds. -/
theorem truth_eq_ok {value : Bool} (compiled : c.truth value = .ok p) :
    ∃ type, p = { fragment := .literal (c.dialect.truthClause value) (.bool value) type,
                  condition := true } := by
  obtain ⟨type, -, ended⟩ := Except.bind_eq_ok_iff.1 compiled
  exact ⟨type, (Except.ok.inj ended).symm⟩

/-- Another condition. -/
theorem test_eq_ok {sql : String} {aggregate exact : Bool}
    (compiled : c.test sql aggregate exact = .ok p) :
    ∃ type, p = { fragment := { sql, kind := .bool, type, aggregate }, exact,
                  condition := true } := by
  obtain ⟨type, -, ended⟩ := Except.bind_eq_ok_iff.1 compiled
  exact ⟨type, (Except.ok.inj ended).symm⟩

/-- A literal that is no condition, with its type. -/
theorem typed_literal_eq_ok {v : Value} (compiled : c.literal v = .ok p)
    (notBool : v.kind ≠ .bool) : ∃ sql type, literalType c.dialect.types v = .ok type ∧
      c.literalText type v = .ok sql ∧ p = { fragment := .literal sql v type } := by
  unfold literal at compiled
  split at compiled
  · exact absurd rfl notBool
  · obtain ⟨type, typed, rest⟩ := Except.bind_eq_ok_iff.1 compiled
    obtain ⟨sql, textEq, ended⟩ := Except.bind_eq_ok_iff.1 rest
    exact ⟨sql, type, Walk.ofOutcome_eq_ok_iff.1 typed, Walk.ofOutcome_eq_ok_iff.1 textEq,
      (Except.ok.inj ended).symm⟩

/-- A literal that is no condition. -/
theorem literal_eq_ok {v : Value} (compiled : c.literal v = .ok p) (notBool : v.kind ≠ .bool) :
    ∃ sql type, c.literalText type v = .ok sql ∧ p = { fragment := .literal sql v type } := by
  obtain ⟨sql, type, -, written, same⟩ := typed_literal_eq_ok compiled notBool
  exact ⟨sql, type, written, same⟩

theorem literal_of_encoded {v : Value} {type : ColumnType} {sql : String} (notBool : v.kind ≠ .bool)
    (typed : literalType c.dialect.types v = .ok type) (encoded : c.literalText type v = .ok sql) :
    c.literal v = .ok { fragment := .literal sql v type } := by
  unfold literal
  split
  · exact absurd rfl notBool
  · rw [typed]
    simp only [Walk.ofOutcome, bind, Except.bind, encoded]

theorem constant_of_literal {w : Value} (compiled : c.literal w = .ok p) :
    p.fragment.constant = some w ∧ p.fragment.kind = w.kind ∧ p.exact = true := by
  cases kindEq : decide (w.kind = .bool) with
  | true =>
      cases w with
      | bool b =>
          obtain ⟨type, rfl⟩ := truth_eq_ok compiled
          exact ⟨rfl, rfl, rfl⟩
      | _ => cases kindEq
  | false =>
      obtain ⟨sql, type, -, rfl⟩ := literal_eq_ok compiled (by simpa using kindEq)
      exact ⟨rfl, rfl, rfl⟩

@[simp]
theorem operand_kind (p : Piece) : (c.operand p).kind = p.fragment.kind := by
  unfold operand
  split
  · rfl
  · split <;> rfl

@[simp]
theorem operand_constant (p : Piece) : (c.operand p).constant = p.fragment.constant := by
  unfold operand
  split
  · rfl
  · split <;> rfl

@[simp]
theorem aggregate_operand (p : Piece) : (c.operand p).aggregate = p.fragment.aggregate := by
  unfold operand
  split
  · rfl
  · split <;> rfl

theorem operand_of_not_condition (condition : p.condition = false)
    (constant : p.fragment.constant = none) : (c.operand p).sql = p.fragment.sql := by
  rw [operand, constant]
  simp [condition]

/-! ## What the steps end with -/

section

variable {l r : Piece} {negated : Bool}

theorem none_or_none {a b : Option Value}
    (unfolded : ∀ k k', a = some k → b = some k' → False) : a = none ∨ b = none := by
  cases a with
  | none => exact .inl rfl
  | some k =>
      cases b with
      | none => exact .inr rfl
      | some k' => exact (unfolded k k' rfl rfl).elim

theorem folded_eq_ok {result : Outcome Value} (compiled : c.folded result = .ok p) :
    ∃ k, result = .ok k ∧ c.literal k = .ok p := by
  obtain ⟨k, known, ended⟩ := Except.bind_eq_ok_iff.1 compiled
  exact ⟨k, Walk.ofOutcome_eq_ok_iff.1 known, ended⟩

/-- A column of a table that is bound. -/
theorem exists_of_column {index : Nat} {key : String} (compiled : c.column index key = .ok p) :
    ∃ b column, c.bindings[index]? = some b ∧ b.table.lookup key = .ok column ∧
      p = { fragment := {
              sql := if c.bindings.length > 1 then
                c.dialect.quoteName b.label ++ "." ++ column.quotedName else column.quotedName
              kind := column.kind, type := column.type, name := some column.key } } := by
  unfold column at compiled
  split at compiled
  · cases compiled
  · rename_i b bound
    obtain ⟨column, found, ended⟩ := Except.bind_eq_ok_iff.1 compiled
    exact ⟨b, column, bound, Walk.ofOutcome_eq_ok_iff.1 found, (Except.ok.inj ended).symm⟩

/-- A piece is a condition, or it is turned into one by its value or by a comparison. -/
theorem asCondition_eq_ok (compiled : c.asCondition l = .ok p) :
    (l.condition = true ∧ p = l) ∨
    (∃ u, l.fragment.constant = some u ∧ c.truth u.truthy = .ok p) ∨
    ∃ truth, l.fragment.kind = .bool ∧ l.fragment.encode c.dialect (.bool true) = .ok truth ∧
      c.test (c.dialect.compare l.fragment.sql .eq truth) l.fragment.aggregate l.exact = .ok p := by
  unfold asCondition at compiled
  split at compiled
  · rename_i condition
    exact .inl ⟨condition, (Except.ok.inj compiled).symm⟩
  · split at compiled
    · rename_i u known
      exact .inr (.inl ⟨u, known, compiled⟩)
    · split at compiled
      · rename_i isBool
        obtain ⟨truth, encoded, tested⟩ := Except.bind_eq_ok_iff.1 compiled
        exact .inr (.inr ⟨truth, isBool, Walk.ofOutcome_eq_ok_iff.1 encoded, tested⟩)
      · cases compiled

/-- Constants are compared, and everything else is written. -/
theorem compare_eq_ok {shown : String} {op : Comparison}
    (compiled : c.compare shown l op r = .ok p) :
    (∃ u w answer, l.fragment.constant = some u ∧ r.fragment.constant = some w ∧
      u.compareBy op w = .ok answer ∧ c.truth answer = .ok p) ∨
    ((l.fragment.constant = none ∨ r.fragment.constant = none) ∧
      c.compareOpen l op r = .ok p) := by
  unfold compare at compiled
  split at compiled
  · cases compiled
  · split at compiled
    · rename_i u w left right
      obtain ⟨answer, compared, ended⟩ := Except.bind_eq_ok_iff.1 compiled
      exact .inl ⟨u, w, answer, left, right, Walk.ofOutcome_eq_ok_iff.1 compared, ended⟩
    · rename_i open_
      exact .inr ⟨none_or_none open_, compiled⟩

theorem compareOpen_eq_ok {op : Comparison} (compiled : c.compareOpen l op r = .ok p) :
    ∃ sql, c.test sql (l.fragment.aggregate || r.fragment.aggregate) true = .ok p ∧
      ((l.fragment.isNull = true ∧ sql = nullTest (c.operand r).sql (op = .ne)) ∨
        (r.fragment.isNull = true ∧ sql = nullTest (c.operand l).sql (op = .ne)) ∨
        c.compareFragments (c.operand r) op.swapped (c.operand l) = some sql ∨
        c.compareFragments (c.operand l) op (c.operand r) = some sql) := by
  unfold compareOpen at compiled
  dsimp only at compiled
  split at compiled
  · rename_i unknown
    split at compiled
    · rename_i isNull
      exact ⟨_, compiled, .inl ⟨isNull, rfl⟩⟩
    · rename_i notNull
      rw [Bool.or_eq_true] at unknown
      exact ⟨_, compiled, .inr (.inl ⟨unknown.resolve_left notNull, rfl⟩)⟩
  · split at compiled
    · cases compiled
    · obtain ⟨sql, written, tested⟩ := Except.bind_eq_ok_iff.1 compiled
      have written := Walk.ofOption_eq_ok_iff.1 written
      split at written
      · exact ⟨sql, tested, .inr (.inr (.inl written))⟩
      · exact ⟨sql, tested, .inr (.inr (.inr written))⟩

theorem member_eq_ok {members : List Piece} (compiled : c.member l members negated = .ok p) :
    (members = [] ∧ c.truth negated = .ok p) ∨
    ∃ rights, c.memberFragments (c.operand l) members = .ok rights ∧
      c.test (memberText (c.operand l)
          (rights.map fun right => Sql.Fragment.operandText c.dialect (c.operand l) right)
          (members.any fun m => m.fragment.isNull) negated)
        (l.fragment.aggregate || rights.any Sql.Fragment.aggregate) true = .ok p := by
  unfold member at compiled
  split at compiled
  · rename_i none_
    exact .inl ⟨List.isEmpty_iff.1 none_, compiled⟩
  · obtain ⟨rights, written, tested⟩ := Except.bind_eq_ok_iff.1 compiled
    rw [aggregate_operand] at tested
    exact .inr ⟨rights, written, tested⟩

theorem substring_eq_ok (compiled : c.substring l r negated = .ok p) :
    ∃ test, Affix.within.render? false c.dialect (c.operand l) (c.operand r) = some test ∧
      ∃ sql exact_, (sql = test.fragment.sql ∨
          sql = "NOT " ++ Text.bracketed test.fragment.sql) ∧
        c.test sql (l.fragment.aggregate || r.fragment.aggregate) exact_ = .ok p := by
  obtain ⟨test, rendered, rest⟩ := Except.bind_eq_ok_iff.1 compiled
  have rendered := Walk.ofOption_eq_ok_iff.1 rendered
  split at rest
  · exact ⟨test, rendered, _, _, .inl rfl, rest⟩
  · split at rest
    · exact ⟨test, rendered, _, _, .inr rfl, rest⟩
    · cases rest

/-- Whether a constant has another one is known.  Otherwise it is looked for among the members of
a constant or in a text. -/
theorem contains_eq_ok (compiled : c.contains l r negated = .ok p) :
    (∃ u w found, l.fragment.constant = some u ∧ r.fragment.constant = some w ∧
      w.contains u = .ok found ∧ c.truth (found != negated) = .ok p) ∨
    (∃ values members, r.fragment.constant = some (.list values) ∧
      List.Forall₂ (fun v member => c.literal v = .ok member) values members ∧
      c.member l members negated = .ok p) ∨
    c.substring r l negated = .ok p := by
  unfold contains at compiled
  split at compiled
  · rename_i u w left right
    obtain ⟨found, contained, ended⟩ := Except.bind_eq_ok_iff.1 compiled
    exact .inl ⟨u, w, found, left, right, Walk.ofOutcome_eq_ok_iff.1 contained, ended⟩
  · rename_i values listed _
    obtain ⟨members, written, ended⟩ := Except.bind_eq_ok_iff.1 compiled
    exact .inr (.inl ⟨values, members, listed, Except.mapM_eq_ok_iff.1 written, ended⟩)
  · split at compiled
    · exact .inr (.inr compiled)
    · cases compiled

/-- Constants are folded, and everything else is written. -/
theorem arithmetic_eq_ok {op : Arithmetic} (compiled : c.arithmetic l op r = .ok p) :
    (∃ k k' u, l.fragment.constant = some k ∧ r.fragment.constant = some k' ∧
      k.arithmetic op k' = .ok u ∧ c.literal u = .ok p) ∨
    ((l.fragment.constant = none ∨ r.fragment.constant = none) ∧ ∃ kind sql type,
      op.resultKind l.fragment.kind r.fragment.kind = some kind ∧
      (c.operand l).arithmetic? c.dialect op (c.operand r) = some sql ∧
      p = { fragment := { sql, kind, type
                          aggregate := l.fragment.aggregate || r.fragment.aggregate } }) := by
  unfold arithmetic at compiled
  split at compiled
  · rename_i k k' known known'
    obtain ⟨u, folded, ended⟩ := folded_eq_ok compiled
    exact .inl ⟨k, k', u, known, known', folded, ended⟩
  · rename_i open_
    obtain ⟨kind, listed, rest⟩ := Except.bind_eq_ok_iff.1 compiled
    obtain ⟨sql, written, rest⟩ := Except.bind_eq_ok_iff.1 rest
    have ended : ∃ type, p = { fragment :=
        { sql, kind, type, aggregate := l.fragment.aggregate || r.fragment.aggregate } } := by
      simp only [aggregate_operand] at rest
      split at rest
      · exact ⟨_, (Except.ok.inj rest).symm⟩
      · split at rest
        · exact ⟨_, (Except.ok.inj rest).symm⟩
        · obtain ⟨type, -, ended⟩ := Except.bind_eq_ok_iff.1 rest
          exact ⟨type, (Except.ok.inj ended).symm⟩
    obtain ⟨type, rfl⟩ := ended
    exact .inr ⟨none_or_none open_, kind, sql, type, Walk.ofOption_eq_ok_iff.1 listed,
      Walk.ofOption_eq_ok_iff.1 written, rfl⟩

theorem negative_eq_ok (compiled : c.negative l = .ok p) :
    (∃ k u, l.fragment.constant = some k ∧ k.negate = .ok u ∧ c.literal u = .ok p) ∨
    (l.fragment.constant = none ∧
      (l.fragment.kind.isNumeric = true ∨ l.fragment.kind = .interval) ∧
      p = { fragment := { sql := "(-" ++ l.fragment.sql ++ ")", kind := l.fragment.kind
                          type := l.fragment.type, aggregate := l.fragment.aggregate } }) := by
  unfold negative at compiled
  split at compiled
  · rename_i k known
    obtain ⟨u, folded, ended⟩ := folded_eq_ok compiled
    exact .inl ⟨k, u, known, folded, ended⟩
  · rename_i open_
    split at compiled
    · rename_i signs
      exact .inr ⟨open_, by simpa using signs, (Except.ok.inj compiled).symm⟩
    · cases compiled

theorem field_eq_ok {name : String} (compiled : c.field l name = .ok p) :
    (∃ k u, l.fragment.constant = some k ∧ k.field name = .ok u ∧ c.literal u = .ok p) ∨
    ∃ part rendering, Function.extract? part c.dialect l.fragment = some rendering ∧
      p = { fragment := rendering.fragment.withAggregate l.fragment.aggregate } := by
  unfold field at compiled
  split at compiled
  · rename_i k known
    obtain ⟨u, folded, ended⟩ := folded_eq_ok compiled
    exact .inl ⟨k, u, known, folded, ended⟩
  · obtain ⟨part, -, rest⟩ := Except.bind_eq_ok_iff.1 compiled
    obtain ⟨rendering, rendered, ended⟩ := Except.bind_eq_ok_iff.1 rest
    exact .inr ⟨part, rendering, Walk.ofOption_eq_ok_iff.1 rendered, (Except.ok.inj ended).symm⟩

section

variable {f : Function} {name : String} {pieces : List Piece}

theorem rendered_eq_ok (compiled : call.rendered c f pieces = .ok p) :
    ∃ rendering, f.render? c.dialect (pieces.map c.operand) = some rendering ∧
      p = { fragment := rendering.fragment.withAggregate
              (f.aggregate || (pieces.map c.operand).any Sql.Fragment.aggregate)
            exact := rendering.exact, condition := rendering.fragment.kind = .bool } := by
  obtain ⟨rendering, rendered, ended⟩ := Except.bind_eq_ok_iff.1 compiled
  exact ⟨rendering, Walk.ofOption_eq_ok_iff.1 rendered, (Except.ok.inj ended).symm⟩

theorem call_eq_ok (compiled : c.call name f pieces = .ok p) :
    (∃ ks u, pieces.mapM (fun p => p.fragment.constant) = some ks ∧ f.isFoldable = true ∧
      f.apply name ks = .ok u ∧ c.literal u = .ok p) ∨
    call.rendered c f pieces = .ok p := by
  unfold call at compiled
  split at compiled
  · rename_i ks known
    split at compiled
    · rename_i foldable
      obtain ⟨u, folded, ended⟩ := folded_eq_ok compiled
      exact .inl ⟨ks, u, known, foldable, folded, ended⟩
    · exact .inr compiled
  · exact .inr compiled

end

/-! ## Tests -/

/-- The piece is a condition, of which it may be known whether it holds. -/
inductive Tests (c : CompileContext) (p : Piece) : Prop
  | truth {value : Bool} (compiled : c.truth value = .ok p) : Tests c p
  | test {sql : String} {aggregate exact_ : Bool} (compiled : c.test sql aggregate exact_ = .ok p) :
      Tests c p

theorem Tests.condition (tests : c.Tests p) : p.condition = true := by
  cases tests with
  | truth compiled =>
      obtain ⟨type, rfl⟩ := truth_eq_ok compiled
      rfl
  | test compiled =>
      obtain ⟨type, rfl⟩ := test_eq_ok compiled
      rfl

theorem tests_compare {shown : String} {op : Comparison}
    (compiled : c.compare shown l op r = .ok p) : c.Tests p := by
  rcases compare_eq_ok compiled with ⟨u, w, answer, -, -, -, ended⟩ | ⟨-, open_⟩
  · exact .truth ended
  · obtain ⟨sql, ended, -⟩ := compareOpen_eq_ok open_
    exact .test ended

theorem tests_member {members : List Piece} (compiled : c.member l members negated = .ok p) :
    c.Tests p := by
  rcases member_eq_ok compiled with ⟨-, ended⟩ | ⟨rights, -, ended⟩
  · exact .truth ended
  · exact .test ended

theorem tests_contains (compiled : c.contains l r negated = .ok p) : c.Tests p := by
  rcases contains_eq_ok compiled with ⟨u, w, found, -, -, -, ended⟩ |
    ⟨values, members, -, -, ended⟩ | within
  · exact .truth ended
  · exact tests_member ended
  · obtain ⟨test, -, sql, exact_, -, ended⟩ := substring_eq_ok within
    exact .test ended

theorem tests_negation (compiled : c.negation l = .ok p) : c.Tests p := by
  unfold negation at compiled
  split at compiled
  · exact .truth compiled
  · exact .test compiled

theorem tests_junction {parts : List (Option Piece)} {conjunction : Bool}
    (compiled : c.junction parts conjunction = .ok p) : c.Tests p := by
  unfold junction at compiled
  split at compiled
  · exact .truth compiled
  · exact .test compiled

end

end CompileContext

namespace Term

variable {c : CompileContext} {params : List String} {t : Term} {p : Piece}

theorem compile_exactly_eq_ok_iff :
    t.compile c params >>= Piece.exactly = .ok p ↔
      t.compile c params = .ok p ∧ p.exact = true := by
  rw [Except.bind_eq_ok_iff]
  constructor
  · rintro ⟨q, compiled, exactness⟩
    obtain ⟨rfl, exactness⟩ := Piece.exactly_eq_ok_iff.1 exactness
    exact ⟨compiled, exactness⟩
  · rintro ⟨compiled, exactness⟩
    exact ⟨p, compiled, Piece.exactly_eq_ok_iff.2 ⟨rfl, exactness⟩⟩

/-- Two exact pieces that are put together. -/
theorem compile_pair_eq_ok {l r : Term} {combine : Piece → Piece → Walk Piece}
    (compiled : (do
      let left ← l.compile c params >>= Piece.exactly
      let right ← r.compile c params >>= Piece.exactly
      combine left right) = .ok p) :
    ∃ left right, (l.compile c params = .ok left ∧ left.exact = true) ∧
      (r.compile c params = .ok right ∧ right.exact = true) ∧ combine left right = .ok p := by
  obtain ⟨left, leftEq, rest⟩ := Except.bind_eq_ok_iff.1 compiled
  obtain ⟨right, rightEq, combined⟩ := Except.bind_eq_ok_iff.1 rest
  exact ⟨left, right, compile_exactly_eq_ok_iff.1 leftEq, compile_exactly_eq_ok_iff.1 rightEq,
    combined⟩

/-- The pieces of items are exact. -/
theorem compileItems_eq_ok_iff {items : List Term} {pieces : List Piece} :
    compileItems c params items = .ok pieces ↔
      List.Forall₂ (fun t p => t.compile c params = .ok p ∧ p.exact = true) items pieces := by
  induction items generalizing pieces with
  | nil =>
      rw [compileItems, List.forall₂_nil_left_iff]
      exact ⟨fun ended => (Except.ok.inj ended).symm, fun empty => empty ▸ rfl⟩
  | cons item items ih =>
      rw [compileItems, Except.bind_eq_ok_iff, List.forall₂_cons_left_iff]
      constructor
      · rintro ⟨p, head, rest⟩
        obtain ⟨ps, tail, ended⟩ := Except.bind_eq_ok_iff.1 rest
        exact ⟨p, ps, compile_exactly_eq_ok_iff.1 head, ih.1 tail, (Except.ok.inj ended).symm⟩
      · rintro ⟨p, ps, head, tail, rfl⟩
        exact ⟨p, compile_exactly_eq_ok_iff.2 head,
          Except.bind_eq_ok_iff.2 ⟨ps, ih.2 tail, rfl⟩⟩

/-- The parts of a junction are compiled one after the other. -/
theorem compileParts_cons_eq_ok {item : Term} {items : List Term} {parts : List (Option Piece)}
    (compiled : compileParts c params (item :: items) = .ok parts) :
    ∃ part later, parts = part :: later ∧ compileParts c params items = .ok later ∧
      ∀ p, part = some p → item.compile c params >>= c.asCondition = .ok p := by
  rw [compileParts] at compiled
  split at compiled
  · rename_i p condition
    obtain ⟨_, here, rest⟩ := Except.bind_eq_ok_iff.1 compiled
    obtain rfl := Except.ok.inj here
    obtain ⟨later, tail, ended⟩ := Except.bind_eq_ok_iff.1 rest
    refine ⟨some p, later, (Except.ok.inj ended).symm, tail, fun q same => ?_⟩
    rw [condition, Option.some.inj same]
  · obtain ⟨_, here, rest⟩ := Except.bind_eq_ok_iff.1 compiled
    obtain rfl := Except.ok.inj here
    obtain ⟨later, tail, ended⟩ := Except.bind_eq_ok_iff.1 rest
    refine ⟨none, later, (Except.ok.inj ended).symm, tail, fun q same => ?_⟩
    cases same
  · cases compiled

/-- A part of a junction is the condition of an item. -/
theorem exists_of_mem_compileParts {items : List Term} {parts : List (Option Piece)}
    (compiled : compileParts c params items = .ok parts) (among : some p ∈ parts) :
    ∃ item ∈ items, ∃ base, item.compile c params = .ok base ∧ c.asCondition base = .ok p := by
  induction items generalizing parts with
  | nil =>
      obtain rfl := Except.ok.inj compiled
      cases among
  | cons item items ih =>
      obtain ⟨part, later, rfl, tail, condition⟩ := compileParts_cons_eq_ok compiled
      rcases List.mem_cons.1 among with own | other
      · obtain ⟨base, baseEq, ended⟩ := Except.bind_eq_ok_iff.1 (condition p own.symm)
        exact ⟨item, List.mem_cons_self, base, baseEq, ended⟩
      · obtain ⟨u, member, found⟩ := ih tail other
        exact ⟨u, List.mem_cons_of_mem item member, found⟩

/-- The parts of a junction of which each one has a condition. -/
theorem compileParts_of_present {items : List Term} {parts : List (Option Piece)}
    (compiled : compileParts c params items = .ok parts)
    (present : parts.all (fun part => part.any Piece.exact) = true) :
    ∃ pieces, parts = pieces.map some ∧
      List.Forall₂ (fun t p => t.compile c params >>= c.asCondition = .ok p ∧ p.exact = true)
        items pieces := by
  induction items generalizing parts with
  | nil =>
      obtain rfl := Except.ok.inj compiled
      exact ⟨[], rfl, .nil⟩
  | cons item items ih =>
      obtain ⟨part, later, rfl, tail, condition⟩ := compileParts_cons_eq_ok compiled
      rw [List.all_cons, Bool.and_eq_true] at present
      obtain ⟨pieces, rfl, each⟩ := ih tail present.2
      cases part with
      | none => cases present.1
      | some p => exact ⟨p :: pieces, rfl, .cons ⟨condition p rfl, present.1⟩ each⟩

end Term

/-! ## Columns -/

namespace CompileContext

variable {c : CompileContext} {e : Lambda} {t : Term} {f : Sql.Fragment}

theorem exactValue_eq_ok (valued : c.exactValue e t = .ok f) :
    ∃ p, t.compile c e.params = .ok p ∧ isList p.fragment = false ∧ f = c.operand p := by
  unfold exactValue at valued
  split at valued
  · rename_i p compiled
    split at valued
    · rename_i accepted
      rw [Bool.and_eq_true, Bool.not_eq_true'] at accepted
      obtain rfl := Except.ok.inj valued
      exact ⟨p, compiled, accepted.2, rfl⟩
    · cases valued
  · cases valued
  · cases valued

/-- The columns are the terms that an expression consists of, in turn and under some names. -/
theorem forall₂_namedValues {index : Nat} {ts : List Term} {fs : List Sql.Fragment}
    (named : c.namedValues e index ts = .ok fs) :
    List.Forall₂ (fun f t => ∃ g, c.exactValue e t = .ok g ∧ f = { g with name := f.name })
      fs ts := by
  induction ts generalizing index fs with
  | nil =>
      obtain rfl := Except.ok.inj named
      exact .nil
  | cons t ts ih =>
      obtain ⟨g, valued, rest⟩ := Except.bind_eq_ok_iff.1 named
      obtain ⟨later, tail, ended⟩ := Except.bind_eq_ok_iff.1 rest
      obtain rfl := Except.ok.inj ended
      exact .cons ⟨g, valued, rfl⟩ (ih tail)

theorem namedValues_mem {index : Nat} {ts : List Term} {fs : List Sql.Fragment}
    (named : c.namedValues e index ts = .ok fs) (among : f ∈ fs) :
    ∃ t ∈ ts, ∃ g, c.exactValue e t = .ok g ∧ f = { g with name := f.name } :=
  (forall₂_namedValues named).exists_of_mem among

/-- The columns are the pieces of these terms as operands. -/
theorem forall₂_columns {fs : List Sql.Fragment} (listed : c.columns e = .ok fs) :
    List.Forall₂ (fun f t => ∃ p, t.compile c e.params = .ok p ∧
      f = { c.operand p with name := f.name }) fs e.body.entries := by
  obtain ⟨-, -, named⟩ := Except.bind_eq_ok_iff.1 listed
  refine (forall₂_namedValues named).imp fun f t found => ?_
  obtain ⟨g, valued, same⟩ := found
  obtain ⟨p, compiled, -, rfl⟩ := exactValue_eq_ok valued
  exact ⟨p, compiled, same⟩

theorem columns_mem {fs : List Sql.Fragment} (listed : c.columns e = .ok fs) (among : f ∈ fs) :
    ∃ t ∈ e.body.entries, ∃ p, t.compile c e.params = .ok p ∧
      f = { c.operand p with name := f.name } :=
  (forall₂_columns listed).exists_of_mem among

theorem length_columns {fs : List Sql.Fragment} (listed : c.columns e = .ok fs) :
    fs.length = e.body.entries.length :=
  (forall₂_columns listed).length_eq

end CompileContext

end RowQuery
