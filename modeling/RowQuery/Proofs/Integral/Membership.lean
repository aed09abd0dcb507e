import RowQuery.Proofs.Integral.Piece

/-!
# Pieces for membership tests

Members that are NULL literals are left out of the list behind IN, which would not find
them, and are tested for apart.
-/

namespace RowQuery

open RowQuery.Number RowQuery.Sql

namespace CompileContext

variable {c : CompileContext} {mark : Char} {left : Fragment} {item : Term} {ts : List Term}
variable {ps : List Piece} {rights : List Fragment}

/-- The members behind IN, and those that are left out. -/
theorem memberFragments_members (usual : c.dialect.Usual mark)
    (stands : left.StandsFor c mark item)
    (each : List.Forall₂ (fun t p => Piece.Means c mark true t p) ts ps)
    (found : c.memberFragments left ps = .ok rights) :
    ∃ es, Term.Members c left.kind ts es (ps.any fun p => p.fragment.isNull) ∧
      List.Forall₂ (Reads mark operandPower) (rights.map (Fragment.operandText c.dialect left))
        es := by
  induction each generalizing rights with
  | nil =>
      obtain rfl := Except.ok.inj found
      exact ⟨[], .nil, .nil⟩
  | @cons t p ts ps head _ ih =>
      rw [memberFragments] at found
      split at found
      · rename_i isNull
        obtain ⟨es, members, reads⟩ := ih found
        refine ⟨es, ?_, reads⟩
        rw [List.any_cons, isNull, Bool.true_or]
        exact .null (head.of_isNull isNull).1 members
      · rename_i notNull
        have notNull := Bool.eq_false_iff.2 notNull
        have right := head.standsFor usual notNull
        split at found
        · cases found
        · rename_i accepted
          have same : (c.operand p).kind = left.kind := by
            refine Kind.eq_of_accepts .eq stands.kind right.kind ?_
            rw [operand_kind]
            simpa using accepted
          obtain ⟨rest, restEq, ended⟩ := Except.bind_eq_ok_iff.1 found
          obtain rfl := Except.ok.inj ended
          obtain ⟨es, members, reads⟩ := ih restEq
          obtain ⟨e, readsHead, denotes⟩ := right.operandText usual left
          refine ⟨e :: es, ?_, .cons readsHead reads⟩
          rw [List.any_cons, notNull, Bool.false_or]
          exact .value right.regular (same ▸ right.typed) denotes members

/-- NULL has nothing to be compared with. -/
theorem memberFragments_of_null (null : left.kind = .null)
    (found : c.memberFragments left ps = .ok rights) : ∀ p ∈ ps, p.fragment.isNull = true := by
  induction ps generalizing rights with
  | nil => simp
  | cons p ps ih =>
      rw [memberFragments] at found
      split at found
      · rename_i isNull
        intro q member
        rcases List.mem_cons.1 member with rfl | member
        · exact isNull
        · exact ih found q member
      · rw [null] at found
        cases kind : p.fragment.kind <;> rw [kind] at found <;> cases found

/-- The text of a membership test. -/
theorem reads_memberText (isMark : Lexer.IsMark mark) {e : Expression} {texts : List String}
    {es : List Expression} (reads : Reads mark operandPower left.sql e)
    (each : List.Forall₂ (Reads mark operandPower) texts es) (hasNull negated : Bool) :
    Reads mark conditionPower (memberText left texts hasNull negated)
      (.membership e es hasNull negated) := by
  have test := reads.isNull isMark comparisonPower_lt
  unfold memberText Expression.membership
  cases each with
  | nil => exact (test negated).mono conditionPower_le
  | @cons text e' texts es head tail =>
      have among := fun negated => reads.among isMark comparisonPower_lt negated (.cons head tail)
        (by simp)
      cases hasNull with
      | false => exact (among negated).mono conditionPower_le
      | true =>
          cases negated with
          | false =>
              have joined := Reads.chain isMark .or (.cons ((test false).mono (by decide)) .nil)
                ((among false).mono (by decide))
              exact joined.bracketed isMark (by decide) _
          | true =>
              have joined := Reads.chain isMark .and (.cons ((test true).mono (by decide)) .nil)
                ((among true).mono (by decide))
              exact joined.bracketed isMark (by decide) _

end CompileContext

namespace Term

/-- The values of terms are known, and nothing is unknown about them. -/
abbrev AllKnown (c : CompileContext) : List Term → List Value → Prop :=
  List.Forall₂ fun t w => ∀ {scope : Scope} {v : Value}, scope.arguments = c.arguments →
    t.eval scope = .ok v → v = w ∧ isUnknown t v = false

variable {c : CompileContext} {scope : Scope} {ts : List Term} {values vs : List Value}

/-- None of the known values is a NULL of a row. -/
theorem AllKnown.any_sourced (known : AllKnown c ts values)
    (arguments : scope.arguments = c.arguments)
    (evaluated : List.Forall₂ (fun t v => t.eval scope = .ok v) ts vs) (item : Value) :
    ((sourced ts vs).any fun (v, _) => v.looseEq item) =
        (values.any fun w => w.looseEq item) ∧
      ((sourced ts vs).any fun (v, ofRow) => v.isNull && ofRow) = false := by
  induction known generalizing vs with
  | nil =>
      cases evaluated
      exact ⟨rfl, rfl⟩
  | @cons t w ts values head _ ih =>
      cases evaluated with
      | @cons _ v _ vs valueEq rest =>
          obtain ⟨rfl, notUnknown⟩ := head arguments valueEq
          rw [isUnknown] at notUnknown
          obtain ⟨same, none⟩ := ih rest
          simp only [sourced_cons, List.any_cons, same, none, notUnknown, Bool.or_false, and_self]

/-- Among known values a membership test finds what is equal to the item. -/
theorem AllKnown.amongMembers_eq (known : AllKnown c ts values)
    (arguments : scope.arguments = c.arguments)
    (evaluated : List.Forall₂ (fun t v => t.eval scope = .ok v) ts vs) (item : Value) :
    amongMembers false item (sourced ts vs) = .bool (values.any fun w => w.looseEq item) := by
  obtain ⟨found, noneUnknown⟩ := known.any_sourced arguments evaluated item
  rw [Term.amongMembers_eq, found, noneUnknown]
  cases values.any fun w => w.looseEq item <;> rfl

end Term

namespace Piece.Means

variable {c : CompileContext} {mark : Char} {n : Bool} {item collection : Term} {ts : List Term}
variable {p q result : Piece} {ps : List Piece} {values : List Value} {negated : Bool}

/-- The pieces of constants are the literals of their values. -/
theorem literals_of_constants (each : List.Forall₂ (fun t p => Piece.Means c mark true t p) ts ps)
    (constants : (ps.mapM fun p => p.fragment.constant) = some values) :
    values.mapM c.literal = .ok ps ∧ Term.AllKnown c ts values := by
  induction each generalizing values with
  | nil =>
      obtain rfl := Option.some.inj constants
      exact ⟨rfl, .nil⟩
  | @cons t p ts ps head _ ih =>
      rw [List.mapM_cons] at constants
      obtain ⟨w, constant, rest⟩ := Option.bind_eq_some_iff.1 constants
      obtain ⟨ws, restEq, ended⟩ := Option.bind_eq_some_iff.1 rest
      obtain rfl := Option.some.inj ended
      obtain ⟨literals, known⟩ := ih restEq
      have literal : c.literal w = .ok p := by
        cases head with
        | null compiled | known compiled =>
            rw [(CompileContext.constant_of_literal compiled).1] at constant
            obtain rfl := Option.some.inj constant
            exact compiled
        | unknown open' =>
            rw [open'] at constant
            cases constant
      refine ⟨?_, .cons (fun arguments evaluated => head.of_constant constant arguments evaluated)
        known⟩
      rw [List.mapM_cons, literal, literals]
      rfl

/-- A membership test that is not constant. -/
theorem member (usual : c.dialect.Usual mark) (operand : p.Means c mark true item)
    (each : List.Forall₂ (fun t p => Piece.Means c mark true t p) ts ps)
    (lists : Term.Lists c collection ts) (nonempty : ts ≠ [])
    (regular : (Term.member item collection negated).Regular c)
    (unfolded : p.fragment.constant = none ∨ ∃ q ∈ ps, q.fragment.constant = none)
    (compiled : c.member p ps negated = .ok result) :
    result.Means c mark n (.member item collection negated) := by
  have nonemptyPieces : ps.isEmpty = false := by
    cases each with
    | nil => exact absurd rfl nonempty
    | cons => rfl
  rw [CompileContext.member, nonemptyPieces, if_neg Bool.false_ne_true] at compiled
  obtain ⟨rights, rightsEq, compiled⟩ := Except.bind_eq_ok_iff.1 compiled
  have notNull : p.fragment.isNull = false := by
    refine Bool.eq_false_iff.2 fun isNull => ?_
    have null := constant_of_isNull isNull
    rcases unfolded with unfolded | ⟨q, member, unfolded⟩
    · rw [null] at unfolded
      cases unfolded
    · have kind : (c.operand p).kind = .null := by
        rw [CompileContext.operand_kind, (operand.of_isNull isNull).2]
      have isNull := CompileContext.memberFragments_of_null kind rightsEq q member
      rw [Fragment.isNull_of_open unfolded] at isNull
      cases isNull
  have stands := operand.standsFor usual notNull
  obtain ⟨e, reads, denotes⟩ := stands.written
  obtain ⟨es, members, readsEach⟩ :=
    CompileContext.memberFragments_members usual stands each rightsEq
  exact of_test usual compiled regular (Term.typed_member lists negated)
    (CompileContext.reads_memberText usual.isMark reads readsEach _ negated)
    (.membership lists nonempty stands.kind stands.regular stands.typed denotes members negated)

/-- Whether an item is among constants. -/
theorem contains (usual : c.dialect.Usual mark) (operand : p.Means c mark true item)
    (lists : Term.Lists c collection ts) (nonempty : ts ≠ [])
    (whole : q.fragment.constant = some (.list values)) (known : Term.AllKnown c ts values)
    (literals : ∀ {ps}, values.mapM c.literal = .ok ps →
      List.Forall₂ (fun t p => Piece.Means c mark true t p) ts ps)
    (regular : (Term.member item collection negated).Regular c)
    (compiled : c.contains p q negated = .ok result) :
    result.Means c mark n (.member item collection negated) := by
  rw [CompileContext.contains, whole] at compiled
  cases constant : p.fragment.constant with
  | some w =>
      rw [constant] at compiled
      obtain ⟨found, foundEq, compiled⟩ := Except.bind_eq_ok_iff.1 compiled
      obtain rfl := Except.ok.inj foundEq
      refine of_truth compiled regular fun arguments evaluated => ?_
      obtain ⟨a, vs, itemEq, membersEq, rfl⟩ := lists.eval_member arguments evaluated
      obtain ⟨rfl, itemKnown⟩ := operand.of_constant constant arguments itemEq
      rw [itemKnown, known.amongMembers_eq arguments membersEq]
      rfl
  | none =>
      rw [constant] at compiled
      obtain ⟨ps, literalsEq, compiled⟩ := Except.bind_eq_ok_iff.1 compiled
      exact member usual operand (literals literalsEq) lists nonempty regular (.inl constant)
        compiled

end Piece.Means

end RowQuery
