import Mathlib
import RowQuery.Proofs.Filling.Value

/-!
# The direction of a comparison

A comparison may be read from either side.  Whatever order two values have, numbers of different
kinds and lists in lists among them, they have the opposite order from the other side, and where
they have none from one side they have none from the other.  So a comparison and its mirror image
end alike, and the six operators answer as those of one order do.
-/

namespace RowQuery

open Number

/-! ## Orders of the parts -/

theorem swap_compare {α : Type} [Ord α] [Std.OrientedOrd α] (a b : α) :
    (Ord.compare a b).swap = Ord.compare b a :=
  Std.OrientedOrd.eq_swap.symm

theorem Number.Decimal.swap_compare (a b : Decimal) : (a.compare b).swap = b.compare a := by
  unfold Decimal.compare Decimal.align
  dsimp only
  generalize a.signed * _ = x
  generalize b.signed * _ = y
  rcases lt_trichotomy x y with less | rfl | more
  · rw [if_pos less, if_neg less.asymm, if_pos less]
    rfl
  · rw [if_neg (lt_irrefl x), if_neg (lt_irrefl x)]
    rfl
  · rw [if_neg more.asymm, if_pos more, if_pos more]
    rfl

theorem Calendar.Date.swap_compare (a b : Calendar.Date) : (a.compare b).swap = b.compare a := by
  unfold Calendar.Date.compare
  rw [Ordering.swap_then, Ordering.swap_then, RowQuery.swap_compare, RowQuery.swap_compare,
    RowQuery.swap_compare]

theorem Calendar.Clock.swap_compare (a b : Calendar.Clock) :
    (a.compare b).swap = b.compare a := by
  unfold Calendar.Clock.compare
  rw [Ordering.swap_then, RowQuery.swap_compare, RowQuery.swap_compare]

theorem Calendar.Moment.swap_compare (a b : Calendar.Moment) :
    (a.compare b).swap = b.compare a := by
  unfold Calendar.Moment.compare
  rw [Ordering.swap_then, Calendar.Date.swap_compare, Calendar.Clock.swap_compare]

theorem swap_compareBytes : ∀ a b : List UInt8, (compareBytes a b).swap = compareBytes b a
  | [], [] => rfl
  | [], _ :: _ => rfl
  | _ :: _, [] => rfl
  | x :: a, y :: b => by
      rw [compareBytes, compareBytes, Ordering.swap_then, swap_compare, swap_compareBytes a b]

/-! ## Doubles -/

section Doubles

open Float.Model

/-- Signs are ordered, the negative one first. -/
theorem swap_compareSign (s t : UnpackedFloat.Sign) : (Ord.compare s t).swap = Ord.compare t s := by
  cases s <;> cases t <;> rfl

theorem swap_compareUnpacked (x y : UnpackedFloat) :
    (x.compare y).map Ordering.swap = y.compare x := by
  cases x with
  | notANumber => cases y <;> rfl
  | infinity s =>
      cases y with
      | infinity t => exact congrArg some (swap_compareSign s t)
      | _ => cases s <;> rfl
  | zero =>
      cases y with
      | notANumber | zero => rfl
      | infinity t | finite t => cases t <;> rfl
  | finite s m e =>
      cases y with
      | notANumber => rfl
      | infinity t => cases t <;> rfl
      | zero => cases s <;> rfl
      | finite t n f =>
          have magnitudes : ((Ord.compare e f).then (Ord.compare m n)).swap =
              (Ord.compare f e).then (Ord.compare n m) := by
            rw [Ordering.swap_then, swap_compare, swap_compare]
          cases s <;> cases t
          · exact congrArg some (congrArg Ordering.swap magnitudes)
          · rfl
          · rfl
          · exact congrArg some magnitudes

/-- Doubles are compared by sign, exponent and mantissa. -/
theorem compareFloats_eq (a b : Float) :
    compareFloats a b = a.toModel.unpack.compare b.toModel.unpack := by
  have less (a b : Float) : a < b ↔ a.toModel.unpack.compare b.toModel.unpack = some .lt :=
    decide_eq_true_iff.trans beq_iff_eq
  have equal : (a == b) = (a.toModel.unpack.compare b.toModel.unpack == some .eq) := rfl
  unfold compareFloats
  simp only [less, equal, ← swap_compareUnpacked a.toModel.unpack b.toModel.unpack]
  rcases a.toModel.unpack.compare b.toModel.unpack with _ | _ | _ | _ <;> rfl

theorem swap_compareFloats (a b : Float) :
    (compareFloats a b).map Ordering.swap = compareFloats b a := by
  rw [compareFloats_eq, compareFloats_eq, swap_compareUnpacked]

end Doubles

/-! ## Documents -/

namespace Json

mutual

theorem same_comm : ∀ a b : Json, a.same b = b.same a
  | .null, b => by cases b <;> rfl
  | .bool x, b => by
      cases b with
      | bool y => exact Bool.beq_comm
      | _ => rfl
  | .number x, b => by
      cases b with
      | number y => rcases x with _ | _ <;> rcases y with _ | _ <;> first | rfl | exact BEq.comm
      | _ => rfl
  | .string x, b => by
      cases b with
      | string y => exact BEq.comm
      | _ => rfl
  | .array xs, b => by
      cases b with
      | array ys => exact sameItems_comm xs ys
      | _ => rfl
  | .object xs, b => by
      cases b with
      | object ys => exact sameMembers_comm xs ys
      | _ => rfl

theorem sameItems_comm : ∀ as bs : List Json, sameItems as bs = sameItems bs as
  | [], bs => by cases bs <;> rfl
  | a :: as, bs => by
      cases bs with
      | nil => rfl
      | cons b bs => rw [sameItems, sameItems, same_comm a b, sameItems_comm as bs]

theorem sameMembers_comm : ∀ as bs : List (String × Json), sameMembers as bs = sameMembers bs as
  | [], bs => by cases bs <;> rfl
  | (k, a) :: as, bs => by
      cases bs with
      | nil => rfl
      | cons head bs =>
          obtain ⟨l, b⟩ := head
          rw [sameMembers, sameMembers, same_comm a b, sameMembers_comm as bs, @BEq.comm _ _ _ k]

end

end Json

namespace Value

/-! ## Values -/

mutual

/-- From the other side two values have the opposite order. -/
theorem swap_compare? : ∀ a b : Value, (a.compare? b).map Ordering.swap = b.compare? a
  | .null, b => by cases b <;> rfl
  | .bool x, b => by
      cases b with
      | bool y => exact congrArg some (swap_compare x y)
      | _ => rfl
  | .int x, b => by
      cases b with
      | int y => exact congrArg some (swap_compare x.toInt y.toInt)
      | float y => exact swap_compareFloats _ y
      | decimal y => exact congrArg some (Decimal.swap_compare _ y)
      | _ => rfl
  | .float x, b => by
      cases b with
      | int y => exact swap_compareFloats x _
      | float y => exact swap_compareFloats x y
      | decimal y =>
          rw [compare?, compare?, Option.map_map]
          exact congrArg₂ Option.map (funext fun x => Decimal.swap_compare x y) rfl
      | _ => rfl
  | .decimal x, b => by
      cases b with
      | int y => exact congrArg some (Decimal.swap_compare x _)
      | float y =>
          rw [compare?, compare?, Option.map_map]
          exact congrArg₂ Option.map (funext fun y => Decimal.swap_compare x y) rfl
      | decimal y => exact congrArg some (Decimal.swap_compare x y)
      | _ => rfl
  | .text x, b => by
      cases b with
      | text y => exact congrArg some (swap_compare x y)
      | _ => rfl
  | .bytes x, b => by
      cases b with
      | bytes y => exact congrArg some (swap_compareBytes x y)
      | _ => rfl
  | .date x, b => by
      cases b with
      | date y => exact congrArg some (Calendar.Date.swap_compare x y)
      | _ => rfl
  | .time x, b => by
      cases b with
      | time y => exact congrArg some (Calendar.Clock.swap_compare x y)
      | _ => rfl
  | .datetime x, b => by
      cases b with
      | datetime y => exact congrArg some (Calendar.Moment.swap_compare x y)
      | _ => rfl
  | .interval x, b => by
      cases b with
      | interval y => exact congrArg some (swap_compare x.nanos y.nanos)
      | _ => rfl
  | .json x, b => by
      cases b with
      | json y =>
          rw [compare?, compare?, Json.same_comm]
          cases y.same x <;> rfl
      | _ => rfl
  | .list as, b => by
      cases b with
      | list bs => exact swap_compareLists? as bs
      | _ => rfl

/-- The first items that differ decide from either side. -/
theorem swap_compareLists? :
    ∀ as bs : List Value, (compareLists? as bs).map Ordering.swap = compareLists? bs as
  | [], bs => by cases bs <;> rfl
  | a :: as, bs => by
      cases bs with
      | nil => rfl
      | cons b bs =>
          rw [compareLists?, compareLists?, ← swap_compare? a b, ← swap_compareLists? as bs]
          rcases a.compare? b with _ | _ | _ | _ <;> rfl

end

/-! ## Equality -/

/-- Values are equal from both sides. -/
theorem equal_symm {a b : Value} (equal : a.compare? b = some .eq) : b.compare? a = some .eq := by
  rw [← swap_compare? a b, equal]
  rfl

/-- What compares as equal can be compared. -/
theorem accepts_of_equal {a b : Value} (equal : a.compare? b = some .eq) :
    Comparison.eq.accepts a.kind b.kind = true := by
  unfold compare? at equal
  split at equal <;> first | rfl | cases equal

theorem looseEq_comm (a b : Value) : a.looseEq b = b.looseEq a := by
  by_cases left : a = null
  · rw [left]
    cases b <;> rfl
  by_cases right : b = null
  · rw [right]
    cases a <;> rfl
  rw [Bool.eq_iff_iff, looseEq_iff left right, looseEq_iff right left]
  exact ⟨equal_symm, equal_symm⟩

/-- Equality as the comparison has it is equality by value, NULL included. -/
theorem compareBy_equals (a b : Value) : a.compareBy .eq b = .ok (a.looseEq b) := by
  by_cases left : a = null
  · rw [left]
    cases b <;> rfl
  by_cases right : b = null
  · rw [right]
    cases a <;> rfl
  have same := looseEq_iff left right
  rw [compareBy_of_known left right]
  split
  · exact congrArg Except.ok (Bool.eq_iff_iff.2 (beq_iff_eq.trans same.symm))
  · rename_i refused
    have differ : a.looseEq b = false :=
      Bool.eq_false_iff.2 fun equal => refused (accepts_of_equal (same.1 equal))
    rw [differ]
    rfl

theorem compareBy_ne (a b : Value) : a.compareBy .ne b = (a.compareBy .eq b).map (!·) := by
  have alike : Comparison.ne.accepts a.kind b.kind = Comparison.eq.accepts a.kind b.kind := rfl
  unfold compareBy
  rw [alike]
  split
  · exact congrArg Except.ok (by cases a.isNull <;> cases b.isNull <;> rfl)
  · split <;> rfl

/-! ## Mirror images -/

/-- Outcomes are alike if they are the same answer or have faults of the same cause: the words of a
fault name the operands in the order in which they stand. -/
inductive Alike {α : Type} : Outcome α → Outcome α → Prop
  | answer (a : α) : Alike (.ok a) (.ok a)
  | fault {f g : Fault} (cause : f.ctorIdx = g.ctorIdx) : Alike (.error f) (.error g)

theorem isEquality_swapped (op : Comparison) : op.swapped.isEquality = op.isEquality := by
  cases op <;> rfl

theorem accepts_swapped (op : Comparison) (l r : Kind) :
    op.swapped.accepts r l = op.accepts l r := by
  unfold Comparison.accepts
  rw [Bool.and_comm, isEquality_swapped]
  cases l <;> cases r <;> rfl

theorem compareNull_swapped (a b : Value) (op : Comparison) :
    Alike (compareNull a op b) (compareNull b op.swapped a) := by
  unfold compareNull
  rw [isEquality_swapped, Bool.and_comm b.isNull]
  cases op with
  | eq | ne => exact .answer _
  | _ => exact .fault rfl

theorem compareUnrelated_swapped (a b : Value) (op : Comparison) :
    Alike (compareUnrelated a op b) (compareUnrelated b op.swapped a) := by
  unfold compareUnrelated
  cases op with
  | eq | ne => exact .answer _
  | _ => exact .fault rfl

/-- A comparison ends as its mirror image does. -/
theorem compareBy_swapped (a b : Value) (op : Comparison) :
    Alike (a.compareBy op b) (b.compareBy op.swapped a) := by
  unfold compareBy
  rw [Bool.or_comm b.isNull, accepts_swapped, ← swap_compare? a b, Comparison.holds_swapped]
  split
  · exact compareNull_swapped a b op
  · split
    · exact .answer _
    · exact compareUnrelated_swapped a b op

/-! ## The operators as one order -/

/-- The operators that tell less from greater. -/
def orderings : List Comparison := [.lt, .le, .gt, .ge]

/-- All operators answer of two values, as an order in which they are less, equal or greater. -/
structure Ranked (a b : Value) (less equal greater : Bool) : Prop where
  lt : a.compareBy .lt b = .ok less
  le : a.compareBy .le b = .ok (less || equal)
  eq : a.compareBy .eq b = .ok equal
  ne : a.compareBy .ne b = .ok !equal
  ge : a.compareBy .ge b = .ok (greater || equal)
  gt : a.compareBy .gt b = .ok greater
  atMostOne : [less, equal, greater].count true ≤ 1

theorem ranked_of_holds {a b : Value} {o : Option Ordering}
    (answers : ∀ op : Comparison, a.compareBy op b = .ok (op.holds o)) :
    Ranked a b (o == some .lt) (o == some .eq) (o == some .gt) where
  lt := answers .lt
  le := answers .le
  eq := answers .eq
  ne := answers .ne
  ge := answers .ge
  gt := answers .gt
  atMostOne := by rcases o with _ | _ | _ | _ <;> decide

/-- Values that have an order can be compared by any operator. -/
theorem accepts_of_ordering {op : Comparison} {l r : Kind} (ordering : op.isEquality = false)
    (accepted : op.accepts l r = true) (op' : Comparison) : op'.accepts l r = true := by
  unfold Comparison.accepts at accepted ⊢
  rw [ordering] at accepted
  split at accepted
  · rw [if_pos ‹_›]
  · rw [if_neg ‹_›]
    cases l <;> cases r <;> first | rfl | cases accepted

/-- Either the operators rank the values, or they only tell whether these are equal. -/
theorem ranked_or_unordered (a b : Value) :
    (∃ less equal greater, Ranked a b less equal greater) ∨
      ∀ op ∈ orderings, ∃ fault, a.compareBy op b = .error fault := by
  have ordering {op : Comparison} (among : op ∈ orderings) : op.isEquality = false := by
    revert op
    decide
  by_cases unknown : (a.isNull || b.isNull) = true
  · refine .inr fun op among => ?_
    rw [compareBy, if_pos unknown, compareNull, ordering among]
    exact ⟨_, rfl⟩
  by_cases accepted : Comparison.lt.accepts a.kind b.kind = true
  · refine .inl ⟨_, _, _, @ranked_of_holds a b (a.compare? b) fun op => ?_⟩
    rw [compareBy, if_neg unknown, if_pos (accepts_of_ordering rfl accepted op)]
  · refine .inr fun op among => ?_
    have refused : ¬ op.accepts a.kind b.kind = true :=
      fun taken => accepted (accepts_of_ordering (ordering among) taken .lt)
    rw [compareBy, if_neg unknown, if_neg refused, compareUnrelated, ordering among]
    exact ⟨_, rfl⟩

/-- A comparison may be mirrored, `!=` negates `==`, and where values have an order all operators
follow it. -/
theorem comparison_is_sound (a b : Value) :
    (∀ op : Comparison, Alike (a.compareBy op b) (b.compareBy op.swapped a)) ∧
      (∃ equal, a.compareBy .eq b = .ok equal ∧ a.compareBy .ne b = .ok !equal) ∧
      ((∃ less equal greater, Ranked a b less equal greater) ∨
        ∀ op ∈ orderings, ∃ fault, a.compareBy op b = .error fault) := by
  refine ⟨compareBy_swapped a b, ⟨_, compareBy_equals a b, ?_⟩, ranked_or_unordered a b⟩
  rw [compareBy_ne, compareBy_equals]
  rfl

end Value

end RowQuery
