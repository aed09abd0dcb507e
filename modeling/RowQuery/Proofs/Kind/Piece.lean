import RowQuery.Proofs.Kind.Function
import RowQuery.Proofs.Piece

/-!
# Kinds of pieces

What a compiled piece tells of the values of its term: the kind that they have unless they are
NULL, and for a constant also the value.  Tests tell no more than that the value is a truth value.
Every other step of the compiler is followed here next to the step of the evaluation that it
stands for.
-/

namespace RowQuery

open Value

namespace Piece

/-- A piece tells of a value of its term. -/
structure Foretells (p : Piece) (v : Value) : Prop where
  fits : v.Fits p.fragment.kind
  foreseen : ∀ k, p.fragment.constant = some k → k.Foresees v

/-- The piece is a test, and may be known to hold or not. -/
structure IsTest (p : Piece) : Prop where
  kind : p.fragment.kind = .bool
  constant : ∀ k, p.fragment.constant = some k → k.kind = .bool

variable {p : Piece} {v : Value}

theorem IsTest.foretells (test : p.IsTest) (fits : v.Fits .bool) : p.Foretells v :=
  ⟨by rwa [test.kind], fun k known => .of_bool fits (test.constant k known)⟩

theorem Foretells.of_open (unknown : p.fragment.constant = none) (fits : v.Fits p.fragment.kind) :
    p.Foretells v :=
  ⟨fits, fun k known => by rw [unknown] at known; cases known⟩

/-- A piece that stands for a value other than a truth value is not known if that is NULL. -/
theorem Foretells.not_null_of_solid (foretells : p.Foretells v) {k : Value}
    (known : p.fragment.constant = some k) (solid : k.Solid) : v ≠ .null :=
  (foretells.foreseen k known).not_null_of_solid solid

theorem constants_foresee {pieces : List Piece} {ks vs : List Value}
    (known : pieces.mapM (fun p => p.fragment.constant) = some ks)
    (each : List.Forall₂ Foretells pieces vs) : List.Forall₂ Foresees ks vs :=
  (List.mapM_eq_some_iff.1 known).of_common each
    fun _ _ k _ isConstant foretells => foretells.foreseen k isConstant

end Piece

namespace CompileContext

open Piece

variable {c : CompileContext} {p l r : Piece} {k v a b : Value}

/-! ## Tests -/

theorem isTest_truth {value : Bool} (compiled : c.truth value = .ok p) : p.IsTest := by
  obtain ⟨type, rfl⟩ := truth_eq_ok compiled
  exact ⟨rfl, fun k known => by rw [← Option.some.inj known]; rfl⟩

theorem isTest_test {sql : String} {aggregate exact_ : Bool}
    (compiled : c.test sql aggregate exact_ = .ok p) : p.IsTest := by
  obtain ⟨type, rfl⟩ := test_eq_ok compiled
  exact ⟨rfl, nofun⟩

theorem Tests.isTest (tests : c.Tests p) : p.IsTest := by
  cases tests with
  | truth compiled => exact isTest_truth compiled
  | test compiled => exact isTest_test compiled

/-! ## Literals -/

theorem foretells_literal (compiled : c.literal k = .ok p) (foresees : k.Foresees v) :
    p.Foretells v := by
  by_cases isBool : k.kind = .bool
  · have test : p.IsTest := by
      cases k with
      | bool b => exact isTest_truth compiled
      | _ => cases isBool
    refine test.foretells ?_
    rw [← isBool]
    exact foresees.fits
  · obtain ⟨sql, type, -, rfl⟩ := literal_eq_ok compiled isBool
    refine ⟨foresees.fits, fun k' known => ?_⟩
    rwa [← Option.some.inj known]

/-! ## Arithmetic -/

theorem foretells_arithmetic {op : Arithmetic} (compiled : c.arithmetic l op r = .ok p)
    (left : l.Foretells a) (right : r.Foretells b) (ended : a.arithmetic op b = .ok v) :
    p.Foretells v := by
  rcases arithmetic_eq_ok compiled with ⟨k, k', u, known, known', folded, written⟩ |
    ⟨-, kind, sql, type, listed, -, rfl⟩
  · have foresees := (left.foreseen k known).arithmetic (right.foreseen k' known') folded ended
    exact foretells_literal written foresees
  · obtain ⟨plain, plain'⟩ := plain_of_arithmetic ended
    rw [← left.fits.kind_of_solid plain.toSolid, ← right.fits.kind_of_solid plain'.toSolid,
      resultKind_of_arithmetic ended] at listed
    exact .of_open rfl (.inr (Option.some.inj listed))

/-- With an unknown operand the result is unknown. -/
theorem foretells_arithmetic_null {op : Arithmetic} (compiled : c.arithmetic l op r = .ok p)
    (unknown : l.Foretells .null ∨ r.Foretells .null) : p.Foretells .null := by
  rcases arithmetic_eq_ok compiled with ⟨k, k', u, known, known', folded, -⟩ |
    ⟨-, kind, sql, type, -, -, rfl⟩
  · obtain ⟨plain, plain'⟩ := plain_of_arithmetic folded
    rcases unknown with left | right
    · exact absurd rfl (left.not_null_of_solid known plain.toSolid)
    · exact absurd rfl (right.not_null_of_solid known' plain'.toSolid)
  · exact .of_open rfl (fits_null _)

theorem foretells_negative (compiled : c.negative l = .ok p) (inner : l.Foretells a)
    (ended : a.negate = .ok v) : p.Foretells v := by
  rcases negative_eq_ok compiled with ⟨k, u, known, folded, written⟩ | ⟨-, -, rfl⟩
  · exact foretells_literal written ((inner.foreseen k known).negate folded ended)
  · obtain ⟨same, plain⟩ := kind_of_negate ended
    rw [inner.fits.kind_of_solid plain.toSolid] at same
    exact .of_open rfl (.inr same)

theorem foretells_negative_null (compiled : c.negative l = .ok p) (inner : l.Foretells .null) :
    p.Foretells .null := by
  rcases negative_eq_ok compiled with ⟨k, u, known, folded, -⟩ | ⟨-, -, rfl⟩
  · exact absurd rfl (inner.not_null_of_solid known (kind_of_negate folded).2.toSolid)
  · exact .of_open rfl (fits_null _)

/-! ## Fields and calls -/

theorem foretells_field {name : String} (compiled : c.field l name = .ok p) (base : l.Foretells a)
    (ended : a.field name = .ok v) : p.Foretells v := by
  rcases field_eq_ok compiled with ⟨k, u, known, folded, written⟩ | ⟨part, rendering, rendered, rfl⟩
  · exact foretells_literal written ((base.foreseen k known).field folded ended)
  · have writes := (Function.writes_extract? rendered).2
    exact .of_open writes.unknown (.inr ((kind_of_field ended).1.trans writes.kind.symm))

theorem foretells_field_null {name : String} (compiled : c.field l name = .ok p)
    (base : l.Foretells .null) : p.Foretells .null := by
  rcases field_eq_ok compiled with ⟨k, u, known, folded, -⟩ | ⟨part, rendering, rendered, rfl⟩
  · exact absurd rfl (base.not_null_of_solid known (kind_of_field folded).2.toSolid)
  · exact .of_open (Function.writes_extract? rendered).2.unknown (fits_null _)

variable {f : Function} {name : String} {pieces : List Piece}

theorem foretells_call (sound : f.Sound) (compiled : c.call name f pieces = .ok p)
    {vs : List Value} (each : List.Forall₂ Foretells pieces vs) (ended : f.apply name vs = .ok v) :
    p.Foretells v := by
  rcases call_eq_ok compiled with ⟨ks, u, known, foldable, folded, written⟩ | written
  · have foresees := constants_foresee known each
    exact foretells_literal written
      (sound.foresees name ks vs u v foldable foresees folded ended)
  · obtain ⟨rendering, rendered, rfl⟩ := rendered_eq_ok written
    refine .of_open (sound.unknown _ _ _ rendered) ?_
    refine sound.fits _ _ _ name vs v rendered ?_ ended
    rw [List.forall₂_map_left_iff]
    refine each.imp fun piece value foretells => ?_
    rw [operand_kind]
    exact foretells.fits

theorem foretells_call_null (sound : f.Sound) (compiled : c.call name f pieces = .ok p)
    (unknown : ∃ piece ∈ pieces, piece.Foretells .null) : p.Foretells .null := by
  obtain ⟨piece, member, foretells⟩ := unknown
  rcases call_eq_ok compiled with ⟨ks, u, known, foldable, folded, -⟩ | written
  · obtain ⟨k, operand, found⟩ := (List.mapM_eq_some_iff.1 known).exists_of_mem member
    have solid := sound.solid name ks u foldable folded k operand
    exact absurd rfl (foretells.not_null_of_solid found solid)
  · obtain ⟨rendering, rendered, rfl⟩ := rendered_eq_ok written
    exact .of_open (sound.unknown _ _ _ rendered) (fits_null _)

end CompileContext

end RowQuery
