import RowQuery.Proofs.Logic.Comparison
import RowQuery.Proofs.Logic.Connective

/-!
# Membership

An item is in a collection where it is equal to one of the members.  Membership has rules of its own
for NULL, for a literal NULL among the members and for the order of the operands; this file compares
them with those of a disjunction of equalities and, for `not in`, of a conjunction of inequalities.
-/

namespace RowQuery

open Connective

namespace Value

theorem looseEq_null (v : Value) : v.looseEq null = v.isNull := by
  cases v <;> rfl

end Value

/-! ## One member -/

namespace Term

/-- Whether an item equals a member: a NULL from row data on one side leaves it open, unless a
literal NULL stands on the other one. -/
def memberTruth (itemUnknown : Bool) (item : Value) (member : Value × Bool) : Truth :=
  .ofSearch (if itemUnknown then member.1.isNull && !member.2 else member.1.looseEq item)
    (itemUnknown || member.1.isNull && member.2)

theorem compareValues_equals (l r : Term) (a b : Value) :
    compareValues l r .eq a b =
      .ok (.ofTruth (memberTruth (isUnknown l a) a (b, r.readsRow))) := by
  rw [compareValues, Value.compareBy_equals, Value.looseEq_comm]
  unfold memberTruth isLiteralNull isUnknown
  by_cases left : a = .null
  · rw [left, Value.looseEq_null]
    cases l.readsRow <;> cases r.readsRow <;> cases b.isNull <;> rfl
  have known : a.isNull = false := Bool.eq_false_iff.2 (mt Value.isNull_iff.1 left)
  by_cases right : b = .null
  · rw [right, Value.looseEq_comm, Value.looseEq_null, known]
    cases r.readsRow <;> rfl
  · rw [known, Bool.eq_false_iff.2 (mt Value.isNull_iff.1 right)]
    cases b.looseEq a <;> rfl

/-- An inequality is left open where the equality is. -/
theorem compareValues_ne (l r : Term) (a b : Value) :
    compareValues l r .ne a b = (compareValues l r .eq a b).map negation := by
  unfold compareValues
  rw [Value.compareBy_ne]
  dsimp only
  split
  · rfl
  · cases a.compareBy .eq b <;> rfl

/-! ## All members -/

theorem any_ofSearch {α : Type} (found undecided : α → Bool) (items : List α) :
    Truth.any (items.map fun item => .ofSearch (found item) (undecided item)) =
      .ofSearch (items.any found) (items.any undecided) := by
  induction items with
  | nil => rfl
  | cons item items ih =>
      rw [List.map_cons, Truth.any_cons, ih, Truth.or_ofSearch, List.any_cons, List.any_cons]

theorem ofTruth_ofSearch (found undecided : Bool) :
    Value.ofTruth (.ofSearch found undecided) =
      if found then .bool true else if undecided then .null else .bool false := by
  cases found <;> cases undecided <;> rfl

/-- The item is found as a disjunction finds it. -/
theorem amongMembers_any {itemUnknown : Bool} {item : Value} {members : List (Value × Bool)}
    (nonempty : members ≠ []) :
    amongMembers itemUnknown item members =
      .ofTruth (Truth.any (members.map (memberTruth itemUnknown item))) := by
  unfold memberTruth
  rw [any_ofSearch, ofTruth_ofSearch]
  unfold amongMembers
  cases itemUnknown with
  | true =>
      obtain ⟨first, rest, rfl⟩ := List.exists_cons_of_ne_nil nonempty
      simp only [if_true, Bool.true_or, List.any_cons]
      rfl
  | false => simp only [Bool.false_or, Bool.false_eq_true, if_false]

/-- A collection with these members: the terms of a tuple or the values of a constant list. -/
inductive Offers : Term → List Term → Prop
  | tuple (items : List Term) : Offers (tuple items) items
  | list (values : List Value) : Offers (constant (.list values)) (values.map constant)

variable {scope : Scope} {item collection : Term} {members : List Term} {values : List Value}

/-- A collection is searched for the values of its members, each with its origin. -/
theorem Offers.membership_eq (item : Term) (offers : Offers collection members)
    (yield : Yield scope members values) : ∃ whole, collection.eval scope = .ok whole ∧
      ∀ value, membership item collection value whole =
        .ok (amongMembers (isUnknown item value) value
          (values.zip (members.map readsRow))) := by
  cases offers with
  | tuple =>
      refine ⟨.list values, ?_, fun value => rfl⟩
      rw [eval, evalItems_eq_ok_iff.2 yield]
      rfl
  | list list =>
      have same : values = list := by
        rw [Yield, List.forall₂_map_left_iff] at yield
        exact (List.forall₂_eq_eq_eq ▸ yield.imp fun _ _ same => Except.ok.inj same).symm
      refine ⟨.list list, by rw [eval], fun value => ?_⟩
      rw [same, List.map_map]
      rfl

/-- The equalities of an item that has a value. -/
theorem yield_equalities {value : Value} (itemValue : item.eval scope = .ok value)
    (yield : Yield scope members values) :
    Yield scope (members.map (compare item .eq))
      (((values.zip (members.map readsRow)).map (memberTruth (isUnknown item value) value)).map
        .ofTruth) := by
  induction yield with
  | nil => exact .nil
  | cons head _ ih =>
      refine .cons ?_ ih
      rw [eval, itemValue, head]
      exact compareValues_equals _ _ _ _

/-- An inequality has the outcome of a negated equality. -/
theorem eval_ne (l r : Term) :
    (compare l .ne r).eval scope = (not (compare l .eq r)).eval scope := by
  rw [eval, eval, eval]
  cases l.eval scope with
  | error fault => rfl
  | ok a =>
      cases r.eval scope with
      | error fault => rfl
      | ok b =>
          change compareValues l r .ne a b = compareValues l r .eq a b >>= fun v => .ok (negation v)
          rw [compareValues_ne, compareValues_equals]
          rfl

/-- A conjunction of inequalities has the outcome of a negated disjunction of equalities. -/
theorem eval_inequalities (item : Term) (members : List Term) :
    (all (members.map (compare item .ne))).eval scope =
      (not (any (members.map (compare item .eq)))).eval scope := by
  refine .trans ?_ (@Connective.eval_not .disjunction scope _).symm
  change (conjunction.term _).eval scope = (conjunction.term _).eval scope
  rw [eval_term, eval_term, List.map_map]
  exact run_congr (List.forall₂_map_right_iff.2 (List.forall₂_map_left_iff.2
    (List.forall₂_same.2 fun member _ => eval_ne item member))) false

/-- A search for an item that has a value finds what the disjunction finds. -/
theorem eval_member {value : Value} (itemValue : item.eval scope = .ok value)
    (offers : Offers collection members) (nonempty : members ≠ [])
    (yield : Yield scope members values) :
    ∃ t : Truth, (any (members.map (compare item .eq))).eval scope = .ok (.ofTruth t) ∧
      ∀ negated, (member item collection negated).eval scope =
        .ok (negateIf negated (.ofTruth t)) := by
  obtain ⟨whole, collected, search⟩ := offers.membership_eq item yield
  have pairs : values.zip (members.map readsRow) ≠ [] := by
    obtain ⟨_, _, rfl⟩ := List.exists_cons_of_ne_nil nonempty
    cases yield
    exact List.cons_ne_nil _ _
  refine ⟨_, @eval_of_yield disjunction _ _ _ (yield_equalities itemValue yield),
    fun negated => ?_⟩
  rw [eval, itemValue, collected]
  change (membership item collection value whole >>= fun found => .ok (negateIf negated found)) = _
  rw [search, amongMembers_any pairs]
  simp only [List.map_map, Function.comp_def, Value.truth_ofTruth]
  rfl

/-- An item without a value is the fault of either. -/
theorem eval_member_fault (collection : Term) {fault : Fault}
    (failed : item.eval scope = .error fault) (nonempty : members ≠ []) :
    (any (members.map (compare item .eq))).eval scope = .error fault ∧
      ∀ negated, (member item collection negated).eval scope = .error fault := by
  obtain ⟨first, rest, rfl⟩ := List.exists_cons_of_ne_nil nonempty
  constructor
  · change (disjunction.term _).eval scope = _
    rw [eval_term, List.map_cons, run_cons, eval, failed]
    rfl
  · intro negated
    rw [eval, failed]
    rfl

/-- Membership is a disjunction of equalities, and `not in` is a conjunction of inequalities. -/
theorem membership_is_disjunction (scope : Scope) (item : Term) {collection : Term}
    {members : List Term} {values : List Value} (offers : Offers collection members)
    (nonempty : members ≠ []) (yield : Yield scope members values) :
    (member item collection false).eval scope =
        (any (members.map (compare item .eq))).eval scope ∧
      (member item collection true).eval scope =
        (all (members.map (compare item .ne))).eval scope := by
  rw [eval_inequalities, eval.eq_def scope (not _)]
  dsimp only
  cases itemValue : item.eval scope with
  | error fault =>
      obtain ⟨equalities, search⟩ := eval_member_fault collection itemValue nonempty
      rw [equalities, search, search]
      exact ⟨rfl, rfl⟩
  | ok value =>
      obtain ⟨t, equalities, search⟩ := eval_member itemValue offers nonempty yield
      rw [equalities, search, search]
      constructor <;> rcases t with _ | _ | _ <;> rfl

/-- A price that is not known is one of 2 and the literal NULL, and it leaves open whether 2 is one
of itself and 3. -/
theorem membership_of_unpriced :
    (member price (tuple [constant (.int 2), constant .null]) false).eval unpriced =
        .ok (.bool true) ∧
      (member (constant (.int 2)) (tuple [price, constant (.int 3)]) true).eval unpriced =
        .ok .null := by
  have literal : Yield unpriced [constant (.int 2), constant .null] [.int 2, .null] :=
    .cons rfl (.cons rfl .nil)
  have cell : Yield unpriced [price, constant (.int 3)] [.null, .int 3] :=
    .cons rfl (.cons rfl .nil)
  constructor
  · exact (membership_is_disjunction unpriced price (.tuple _) (List.cons_ne_nil _ _) literal).1
  · exact (membership_is_disjunction unpriced (constant (.int 2)) (.tuple _) (List.cons_ne_nil _ _)
      cell).2

end Term

end RowQuery
