import RowQuery.Proofs.Kind.Piece

/-!
# Constants of pieces

What can be computed of a term beforehand is a constant in its piece.  Each step of the compiler is
followed here next to the step of the evaluation that it stands for: if the constants of the
operands are their values then so is the constant of the result.  For tests it is told which of them
are constant at all.
-/

namespace RowQuery

open Value

/-- A call has one result.  If its SQL form is a constant then that is what it gives. -/
def Function.Deterministic (f : Function) : Prop :=
  ∀ d operands rendering name k vs v, f.render? d operands = some rendering →
    rendering.fragment.constant = some k →
    List.Forall₂ (fun operand w => ∀ k', operand.constant = some k' → w = k') operands vs →
    f.apply name vs = .ok v → v = k

structure FunctionLibrary.Deterministic (l : FunctionLibrary) : Prop where
  functions : ∀ name f, l.function? name = some f → f.Deterministic
  methods : ∀ name f, l.method? name = some f → f.Deterministic

theorem Function.Sound.deterministic {f : Function} (sound : f.Sound) : f.Deterministic := by
  intro d operands rendering name k vs v rendered marked
  rw [sound.unknown d operands rendering rendered] at marked
  cases marked

theorem FunctionLibrary.Sound.deterministic {l : FunctionLibrary} (sound : l.Sound) :
    l.Deterministic where
  functions name f found := (sound.functions name f found).deterministic
  methods name f found := (sound.methods name f found).deterministic

/-- The constant of the piece is the value, if it has one. -/
def Piece.Marks (p : Piece) (v : Value) : Prop :=
  ∀ k, p.fragment.constant = some k → v = k

namespace Piece

variable {p : Piece} {k v : Value}

theorem marks_of_open (unknown : p.fragment.constant = none) : p.Marks v := by
  intro k known
  rw [unknown] at known
  cases known

theorem Marks.not_null_of_solid (marks : p.Marks v) (known : p.fragment.constant = some k)
    (solid : k.Solid) : v ≠ .null := by
  rintro rfl
  rw [← marks k known] at solid
  exact solid.notNull rfl

theorem eq_of_marks {pieces : List Piece} {ks vs : List Value}
    (known : pieces.mapM (fun p => p.fragment.constant) = some ks)
    (each : List.Forall₂ Marks pieces vs) : ks = vs := by
  rw [← List.forall₂_eq_eq_eq]
  exact (List.mapM_eq_some_iff.1 known).of_common each
    fun _ _ k _ isConstant marks => (marks k isConstant).symm

end Piece

namespace CompileContext

open Piece

variable {c : CompileContext} {p q l r : Piece} {k a b v : Value}

/-! ## Operations -/

theorem marks_literal (compiled : c.literal v = .ok p) : p.Marks v :=
  fun _ known => Option.some.inj ((constant_of_literal compiled).1.symm.trans known)

theorem marks_arithmetic {op : Arithmetic} (compiled : c.arithmetic l op r = .ok p)
    (left : l.Marks a) (right : r.Marks b) (ended : a.arithmetic op b = .ok v) : p.Marks v := by
  rcases arithmetic_eq_ok compiled with ⟨k, k', u, known, known', folded, written⟩ |
    ⟨-, kind, sql, type, -, -, rfl⟩
  · obtain rfl := left k known
    obtain rfl := right k' known'
    obtain rfl := Except.ok.inj (folded.symm.trans ended)
    exact marks_literal written
  · exact marks_of_open rfl

theorem marks_arithmetic_null {op : Arithmetic} (compiled : c.arithmetic l op r = .ok p)
    (unknown : l.Marks .null ∨ r.Marks .null) : p.Marks .null := by
  rcases arithmetic_eq_ok compiled with ⟨k, k', u, known, known', folded, -⟩ |
    ⟨-, kind, sql, type, -, -, rfl⟩
  · obtain ⟨plain, plain'⟩ := plain_of_arithmetic folded
    rcases unknown with left | right
    · exact absurd rfl (left.not_null_of_solid known plain.toSolid)
    · exact absurd rfl (right.not_null_of_solid known' plain'.toSolid)
  · exact marks_of_open rfl

theorem marks_negative (compiled : c.negative l = .ok p) (inner : l.Marks a)
    (ended : a.negate = .ok v) : p.Marks v := by
  rcases negative_eq_ok compiled with ⟨k, u, known, folded, written⟩ | ⟨-, -, rfl⟩
  · obtain rfl := inner k known
    obtain rfl := Except.ok.inj (folded.symm.trans ended)
    exact marks_literal written
  · exact marks_of_open rfl

theorem marks_negative_null (compiled : c.negative l = .ok p) (inner : l.Marks .null) :
    p.Marks .null := by
  rcases negative_eq_ok compiled with ⟨k, u, known, folded, -⟩ | ⟨-, -, rfl⟩
  · exact absurd rfl (inner.not_null_of_solid known (kind_of_negate folded).2.toSolid)
  · exact marks_of_open rfl

theorem marks_field {name : String} (compiled : c.field l name = .ok p) (base : l.Marks a)
    (ended : a.field name = .ok v) : p.Marks v := by
  rcases field_eq_ok compiled with ⟨k, u, known, folded, written⟩ | ⟨part, rendering, rendered, rfl⟩
  · obtain rfl := base k known
    obtain rfl := Except.ok.inj (folded.symm.trans ended)
    exact marks_literal written
  · exact marks_of_open (Function.writes_extract? rendered).2.unknown

theorem marks_field_null {name : String} (compiled : c.field l name = .ok p)
    (base : l.Marks .null) : p.Marks .null := by
  rcases field_eq_ok compiled with ⟨k, u, known, folded, -⟩ | ⟨part, rendering, rendered, rfl⟩
  · exact absurd rfl (base.not_null_of_solid known (kind_of_field folded).2.toSolid)
  · exact marks_of_open (Function.writes_extract? rendered).2.unknown

theorem marks_column {index : Nat} {key : String} (compiled : c.column index key = .ok p) :
    p.Marks v := by
  obtain ⟨b, column, -, -, rfl⟩ := exists_of_column compiled
  exact marks_of_open rfl

theorem marks_call {f : Function} {name : String} {pieces : List Piece} {vs : List Value}
    (deterministic : f.Deterministic) (compiled : c.call name f pieces = .ok p)
    (each : List.Forall₂ Marks pieces vs) (ended : f.apply name vs = .ok v) : p.Marks v := by
  rcases call_eq_ok compiled with ⟨ks, u, known, -, folded, written⟩ | written
  · obtain rfl := eq_of_marks known each
    obtain rfl := Except.ok.inj (folded.symm.trans ended)
    exact marks_literal written
  · obtain ⟨rendering, rendered, rfl⟩ := rendered_eq_ok written
    intro k known
    refine deterministic _ _ _ name k vs v rendered known ?_ ended
    rw [List.forall₂_map_left_iff]
    refine each.imp fun piece value marks k' known' => marks k' ?_
    rwa [operand_constant] at known'

/-! ## Tests that are constant -/

theorem constant_of_truth {value : Bool} (compiled : c.truth value = .ok p) :
    p.fragment.constant = some (.bool value) := by
  obtain ⟨type, rfl⟩ := truth_eq_ok compiled
  rfl

theorem constant_of_test {sql : String} {aggregate exact_ : Bool}
    (compiled : c.test sql aggregate exact_ = .ok p) : p.fragment.constant = none := by
  obtain ⟨type, rfl⟩ := test_eq_ok compiled
  rfl

/-- In the place of a condition a constant counts as its truth value. -/
theorem constant_of_asCondition (compiled : c.asCondition p = .ok q)
    (known : q.fragment.constant = some k) :
    ∃ u, p.fragment.constant = some u ∧ (k = u ∨ k = .bool u.truthy) := by
  rcases asCondition_eq_ok compiled with ⟨-, rfl⟩ | ⟨u, constant, ended⟩ | ⟨truth, -, -, ended⟩
  · exact ⟨k, known, .inl rfl⟩
  · rw [constant_of_truth ended] at known
    exact ⟨u, constant, .inr (Option.some.inj known).symm⟩
  · rw [constant_of_test ended] at known
    cases known

theorem constant_of_negation (compiled : c.negation p = .ok q)
    (known : q.fragment.constant = some k) :
    ∃ u, p.fragment.constant = some u ∧ k = .bool !u.truthy := by
  unfold negation at compiled
  split at compiled
  · rename_i u constant
    rw [constant_of_truth compiled] at known
    exact ⟨u, constant, (Option.some.inj known).symm⟩
  · rw [constant_of_test compiled] at known
    cases known

theorem constant_of_compare {shown : String} {op : Comparison}
    (compiled : c.compare shown l op r = .ok p) (known : p.fragment.constant = some k) :
    ∃ u w answer, l.fragment.constant = some u ∧ r.fragment.constant = some w ∧
      u.compareBy op w = .ok answer ∧ k = .bool answer := by
  rcases compare_eq_ok compiled with ⟨u, w, answer, left, right, compared, ended⟩ | ⟨-, open_⟩
  · rw [constant_of_truth ended] at known
    exact ⟨u, w, answer, left, right, compared, (Option.some.inj known).symm⟩
  · obtain ⟨sql, ended, -⟩ := compareOpen_eq_ok open_
    rw [constant_of_test ended] at known
    cases known

theorem constant_of_member {item : Piece} {members : List Piece} {negated : Bool}
    (compiled : c.member item members negated = .ok p) (known : p.fragment.constant = some k) :
    members = [] ∧ k = .bool negated := by
  rcases member_eq_ok compiled with ⟨none_, ended⟩ | ⟨rights, -, ended⟩
  · rw [constant_of_truth ended] at known
    exact ⟨none_, (Option.some.inj known).symm⟩
  · rw [constant_of_test ended] at known
    cases known

/-- A membership test is constant between constants and in an empty list. -/
theorem constant_of_contains {item collection : Piece} {negated : Bool}
    (compiled : c.contains item collection negated = .ok p) (known : p.fragment.constant = some k) :
    (∃ u w found, item.fragment.constant = some u ∧ collection.fragment.constant = some w ∧
      w.contains u = .ok found ∧ k = .bool (found != negated)) ∨
    (collection.fragment.constant = some (.list []) ∧ k = .bool negated) := by
  rcases contains_eq_ok compiled with ⟨u, w, found, left, right, contained, ended⟩ |
    ⟨values, members, listed, written, ended⟩ | within
  · rw [constant_of_truth ended] at known
    exact .inl ⟨u, w, found, left, right, contained, (Option.some.inj known).symm⟩
  · obtain ⟨rfl, answer⟩ := constant_of_member ended known
    obtain rfl := List.forall₂_nil_right_iff.1 written
    exact .inr ⟨listed, answer⟩
  · obtain ⟨test, -, sql, exact_, -, ended⟩ := substring_eq_ok within
    rw [constant_of_test ended] at known
    cases known

theorem constant_of_junction {parts : List (Option Piece)} {conjunction : Bool}
    (compiled : c.junction parts conjunction = .ok p) (known : p.fragment.constant = some k) :
    parts = [] ∧ k = .bool conjunction := by
  unfold junction at compiled
  split at compiled
  · rw [constant_of_truth compiled] at known
    exact ⟨rfl, (Option.some.inj known).symm⟩
  · rw [constant_of_test compiled] at known
    cases known

end CompileContext

end RowQuery
