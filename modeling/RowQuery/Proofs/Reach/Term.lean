import RowQuery.Proofs.Ingredients
import RowQuery.Proofs.Reach.Piece

/-!
# What compiled terms obey

A term obeys the laws that its ingredients obey.  So its SQL is an expression over the tables of its
context, and if it calls an aggregate, however deep, the piece is marked as one.  Conversely, what
the compiler computes beforehand is a literal, and of other pieces the mark comes from their
operands or from the function that is called.  So a marked piece goes back to the call of an
aggregate in its term.
-/

namespace RowQuery

open RowQuery.Sql BuiltinDialect CompileContext

namespace Term

variable {c : CompileContext} {d : BuiltinDialect} {law : d.Law} {params : List String}

/-- One step of the compiler keeps a law, if the function does that it may call. -/
theorem obeys_of_ingredients (regular : c.Regular d) {t : Term}
    (columns : ∀ i key q, t = field (param i) key → c.column i key = .ok q →
      q.fragment.Obeys law)
    (keeps : ∀ f, t.function? c.functions = some f → f.Keeps law)
    (each : ∀ u ∈ t.ingredients, ∀ q, u.compile c params = .ok q → q.fragment.Obeys law)
    {p : Piece} (compiled : t.compile c params = .ok p) : p.fragment.Obeys law := by
  have made {q : Piece} : t.Made c params q → q.fragment.Obeys law :=
    fun ⟨u, among, ended⟩ => each u among q ended
  cases step_of_compile compiled with
  | literal written => exact obeys_literal regular written
  | column same found => exact columns _ _ _ same found
  | field inner ended => exact obeys_field regular (made inner) ended
  | call called operands ended =>
      exact obeys_call regular (keeps _ called) (fun q among => made (operands q among)) ended
  | compare left right ended => exact obeys_compare regular (made left) (made right) ended
  | member needle members ended =>
      exact obeys_member regular (made needle) (fun q among => made (members q among)) ended
  | contains needle collection ended =>
      refine obeys_contains regular (made needle) (collection.elim made ?_) ended
      exact fun ⟨_, written⟩ => obeys_literal regular written
  | arithmetic left right ended => exact obeys_arithmetic regular (made left) (made right) ended
  | junction parts ended =>
      refine obeys_junction regular (fun q among => ?_) ended
      obtain ⟨base, inner, condition⟩ := parts q among
      exact obeys_asCondition regular (made inner) condition
  | negation inner condition ended =>
      exact obeys_negation regular (obeys_asCondition regular (made inner) condition) ended
  | negative inner ended => exact obeys_negative regular (made inner) ended
  | named inner name =>
      have obeys := made inner
      exact obeys

/-- The piece of a term. -/
theorem compile_reaches (regular : c.Regular d) {t : Term} {p : Piece}
    (compiled : t.compile c params = .ok p) : p.fragment.Reaches d c.reach := by
  refine obeys_of_ingredients regular (fun i key q _ found => reaches_column regular found)
    (fun f called => ?_) (fun u among q ended => compile_reaches regular ended) compiled
  cases t with
  | call name operands => exact regular.functions.functions name f called d c.reach
  | method target name operands => exact regular.functions.methods name f called d c.reach
  | _ => cases called
termination_by t
decreasing_by exact sizeOf_lt_of_mem_ingredients among

end Term

/-! ## Marks of aggregates -/

variable {c : CompileContext} {p l r : Piece} {Q : Prop}

/-- A literal under any name. -/
def Piece.IsLiteral (c : CompileContext) (p : Piece) : Prop :=
  ∃ v q, c.literal v = .ok q ∧ p.fragment.sql = q.fragment.sql ∧ p.fragment.aggregate = false

/-- The piece is a literal, or it is no constant and something makes it an aggregate. -/
def Piece.MarkedBy (c : CompileContext) (Q : Prop) (p : Piece) : Prop :=
  p.IsLiteral c ∨ p.fragment.constant = none ∧ (p.fragment.aggregate = true → Q)

namespace CompileContext

theorem aggregate_of_literal {v : Value} (compiled : c.literal v = .ok p) :
    p.fragment.aggregate = false := by
  by_cases isBool : v.kind = .bool
  · cases v with
    | bool b =>
        obtain ⟨type, rfl⟩ := truth_eq_ok compiled
        rfl
    | _ => cases isBool
  · obtain ⟨sql, type, -, rfl⟩ := literal_eq_ok compiled isBool
    rfl

theorem markedBy_literal {v : Value} (compiled : c.literal v = .ok p) : p.MarkedBy c Q :=
  .inl ⟨v, p, compiled, rfl, aggregate_of_literal compiled⟩

theorem markedBy_truth {b : Bool} (compiled : c.truth b = .ok p) : p.MarkedBy c Q :=
  markedBy_literal (v := .bool b) compiled

theorem markedBy_test {sql : String} {aggregate exact_ : Bool} (marked : aggregate = true → Q)
    (compiled : c.test sql aggregate exact_ = .ok p) : p.MarkedBy c Q := by
  obtain ⟨type, rfl⟩ := test_eq_ok compiled
  exact .inr ⟨rfl, marked⟩

theorem open_of_column {index : Nat} {key : String} (compiled : c.column index key = .ok p) :
    p.fragment.constant = none ∧ p.fragment.aggregate = false := by
  obtain ⟨b, column, -, -, rfl⟩ := exists_of_column compiled
  exact ⟨rfl, rfl⟩

/-- A condition is marked only if it is made of something marked. -/
theorem aggregate_of_asCondition (compiled : c.asCondition l = .ok p)
    (marked : p.fragment.aggregate = true) : l.fragment.aggregate = true := by
  rcases asCondition_eq_ok compiled with ⟨-, rfl⟩ | ⟨u, -, ended⟩ | ⟨truth, -, -, ended⟩
  · exact marked
  · obtain ⟨type, rfl⟩ := truth_eq_ok ended
    cases marked
  · obtain ⟨type, rfl⟩ := test_eq_ok ended
    exact marked

/-! ## Operators -/

section

variable (left : l.fragment.aggregate = true → Q) (right : r.fragment.aggregate = true → Q)

include left

theorem markedBy_negation (compiled : c.negation l = .ok p) : p.MarkedBy c Q := by
  unfold negation at compiled
  split at compiled
  · exact markedBy_truth compiled
  · exact markedBy_test left compiled

theorem markedBy_negative (compiled : c.negative l = .ok p) : p.MarkedBy c Q := by
  rcases negative_eq_ok compiled with ⟨k, u, -, -, literal⟩ | ⟨-, -, rfl⟩
  · exact markedBy_literal literal
  · exact .inr ⟨rfl, left⟩

theorem markedBy_field {name : String} (compiled : c.field l name = .ok p) :
    p.MarkedBy c Q := by
  rcases field_eq_ok compiled with ⟨k, u, -, -, literal⟩ | ⟨part, rendering, rendered, rfl⟩
  · exact markedBy_literal literal
  · exact .inr ⟨(Function.writes_extract? rendered).2.unknown, left⟩

include right

theorem marked_pair (marked : (l.fragment.aggregate || r.fragment.aggregate) = true) : Q :=
  (Bool.or_eq_true_iff.1 marked).elim left right

theorem markedBy_compare {shown : String} {op : Comparison}
    (compiled : c.compare shown l op r = .ok p) : p.MarkedBy c Q := by
  rcases compare_eq_ok compiled with ⟨u, w, answer, -, -, -, ended⟩ | ⟨-, open_⟩
  · exact markedBy_truth ended
  · obtain ⟨sql, ended, -⟩ := compareOpen_eq_ok open_
    exact markedBy_test (marked_pair left right) ended

theorem markedBy_arithmetic {op : Arithmetic} (compiled : c.arithmetic l op r = .ok p) :
    p.MarkedBy c Q := by
  rcases arithmetic_eq_ok compiled with ⟨k, k', u, -, -, -, literal⟩ |
    ⟨-, kind, sql, type, -, -, rfl⟩
  · exact markedBy_literal literal
  · exact .inr ⟨rfl, marked_pair left right⟩

theorem markedBy_substring {negated : Bool} (compiled : c.substring l r negated = .ok p) :
    p.MarkedBy c Q := by
  obtain ⟨test, -, sql, exact_, -, ended⟩ := substring_eq_ok compiled
  exact markedBy_test (marked_pair left right) ended

end

/-! ## Lists of operands -/

variable {pieces : List Piece}

theorem memberFragments_marked {item : Fragment} {fragments : List Fragment}
    (each : ∀ q ∈ pieces, q.fragment.aggregate = true → Q)
    (compiled : c.memberFragments item pieces = .ok fragments) {f : Fragment}
    (among : f ∈ fragments) (marked : f.aggregate = true) : Q := by
  induction pieces generalizing fragments with
  | nil =>
      obtain rfl := Except.ok.inj compiled
      cases among
  | cons member members ih =>
      rw [List.forall_mem_cons] at each
      rw [memberFragments] at compiled
      split at compiled
      · exact ih each.2 compiled among
      · split at compiled
        · cases compiled
        · obtain ⟨rest, later, ended⟩ := Except.bind_eq_ok_iff.1 compiled
          obtain rfl := Except.ok.inj ended
          rcases List.mem_cons.1 among with rfl | other
          · rw [aggregate_operand] at marked
            exact each.1 marked
          · exact ih each.2 later other

theorem markedBy_member {negated : Bool} (item : l.fragment.aggregate = true → Q)
    (each : ∀ q ∈ pieces, q.fragment.aggregate = true → Q)
    (compiled : c.member l pieces negated = .ok p) : p.MarkedBy c Q := by
  rcases member_eq_ok compiled with ⟨-, ended⟩ | ⟨rights, written, ended⟩
  · exact markedBy_truth ended
  · refine markedBy_test (fun marked => ?_) ended
    rw [Bool.or_eq_true, List.any_eq_true] at marked
    rcases marked with own | ⟨f, among, marked⟩
    · exact item own
    · exact memberFragments_marked each written among marked

theorem markedBy_contains {negated : Bool} (item : l.fragment.aggregate = true → Q)
    (whole : r.fragment.aggregate = true → Q) (compiled : c.contains l r negated = .ok p) :
    p.MarkedBy c Q := by
  rcases contains_eq_ok compiled with ⟨u, w, found, -, -, -, ended⟩ |
    ⟨values, members, -, written, ended⟩ | within
  · exact markedBy_truth ended
  · refine markedBy_member item (fun member among marked => ?_) ended
    obtain ⟨v, -, literal⟩ := written.flip.exists_of_mem among
    rw [aggregate_of_literal literal] at marked
    cases marked
  · exact markedBy_substring whole item within

theorem markedBy_call {f : Function} {name : String} (sound : f.Sound)
    (isAggregate : f.aggregate = true → Q)
    (each : ∀ q ∈ pieces, q.fragment.aggregate = true → Q)
    (compiled : c.call name f pieces = .ok p) : p.MarkedBy c Q := by
  rcases call_eq_ok compiled with ⟨ks, u, -, -, -, literal⟩ | written
  · exact markedBy_literal literal
  · obtain ⟨rendering, rendered, rfl⟩ := rendered_eq_ok written
    refine .inr ⟨sound.unknown _ _ _ rendered, fun marked => ?_⟩
    change (f.aggregate || (pieces.map c.operand).any Fragment.aggregate) = true at marked
    rw [Bool.or_eq_true, List.any_eq_true] at marked
    rcases marked with own | ⟨operand, among, marked⟩
    · exact isAggregate own
    · obtain ⟨q, member, rfl⟩ := List.mem_map.1 among
      rw [aggregate_operand] at marked
      exact each q member marked

theorem markedBy_junction {parts : List (Option Piece)} {conjunction : Bool}
    (each : ∀ q, some q ∈ parts → q.fragment.aggregate = true → Q)
    (compiled : c.junction parts conjunction = .ok p) : p.MarkedBy c Q := by
  unfold junction at compiled
  split at compiled
  · exact markedBy_truth compiled
  · refine markedBy_test (fun marked => ?_) compiled
    obtain ⟨part, among, marked⟩ := List.any_eq_true.1 marked
    cases part with
    | none => cases marked
    | some q => exact each q among marked

end CompileContext

namespace Term

/-- The call of an aggregate. -/
def IsAggregate (l : FunctionLibrary) (t : Term) : Prop :=
  ∃ f, t.function? l = some f ∧ f.aggregate = true

instance (l : FunctionLibrary) (t : Term) : Decidable (t.IsAggregate l) :=
  decidable_of_iff ((t.function? l).any Function.aggregate = true) (Option.any_eq_true _ _)

/-- A call of an aggregate is compiled with the term. -/
def HasAggregate (l : FunctionLibrary) (t : Term) : Prop :=
  ∃ s, t.GoesThrough s ∧ s.IsAggregate l

theorem IsAggregate.hasAggregate {l : FunctionLibrary} {t : Term} (own : t.IsAggregate l) :
    t.HasAggregate l :=
  ⟨t, .refl, own⟩

theorem HasAggregate.of_goesThrough {l : FunctionLibrary} {t s : Term} (through : t.GoesThrough s)
    (has : s.HasAggregate l) : t.HasAggregate l :=
  has.imp fun _ ⟨later, own⟩ => ⟨through.trans later, own⟩

theorem hasAggregate_iff {l : FunctionLibrary} {t : Term} : t.HasAggregate l ↔
    t.IsAggregate l ∨ ∃ u ∈ t.ingredients, u.HasAggregate l := by
  constructor
  · rintro ⟨s, through, own⟩
    rcases through.cases_head with rfl | ⟨u, among, later⟩
    · exact .inl own
    · exact .inr ⟨u, among, s, later, own⟩
  · rintro (own | ⟨u, among, has⟩)
    · exact own.hasAggregate
    · exact has.of_goesThrough (.single among)

variable {params : List String}

/-- The mark of a term comes from its ingredients, or it is the call of an aggregate. -/
theorem markedBy_of_ingredients (sound : c.functions.Sound) {t : Term}
    (own : t.IsAggregate c.functions → Q)
    (each : ∀ u ∈ t.ingredients, ∀ q, u.compile c params = .ok q → q.MarkedBy c Q)
    (compiled : t.compile c params = .ok p) : p.MarkedBy c Q := by
  have marked {q : Piece} : t.Made c params q → q.fragment.aggregate = true → Q := by
    rintro ⟨u, among, ended⟩ marked
    rcases each u among q ended with ⟨_, _, -, -, plain⟩ | ⟨-, known⟩
    · cases plain.symm.trans marked
    · exact known marked
  cases step_of_compile compiled with
  | literal written => exact markedBy_literal written
  | column same found =>
      obtain ⟨open_, plain⟩ := open_of_column found
      exact .inr ⟨open_, fun aggregate => by cases plain.symm.trans aggregate⟩
  | field inner ended => exact markedBy_field (marked inner) ended
  | @call f name pieces _ called operands ended =>
      have isSound : f.Sound := by
        cases t with
        | call name items => exact sound.functions name f called
        | method target name items => exact sound.methods name f called
        | _ => cases called
      exact markedBy_call isSound (fun aggregate => own ⟨f, called, aggregate⟩)
        (fun q among => marked (operands q among)) ended
  | compare left right ended => exact markedBy_compare (marked left) (marked right) ended
  | member needle members ended =>
      exact markedBy_member (marked needle) (fun q among => marked (members q among)) ended
  | contains needle collection ended =>
      refine markedBy_contains (marked needle) (collection.elim marked ?_) ended
      rintro ⟨v, written⟩ aggregate
      cases (aggregate_of_literal written).symm.trans aggregate
  | arithmetic left right ended => exact markedBy_arithmetic (marked left) (marked right) ended
  | junction parts ended =>
      refine markedBy_junction (fun q among aggregate => ?_) ended
      obtain ⟨base, inner, condition⟩ := parts q among
      exact marked inner (aggregate_of_asCondition condition aggregate)
  | negation inner condition ended =>
      exact markedBy_negation (fun aggregate =>
        marked inner (aggregate_of_asCondition condition aggregate)) ended
  | negative inner ended => exact markedBy_negative (marked inner) ended
  | named inner name =>
      obtain ⟨u, among, ended⟩ := inner
      have same := each u among _ ended
      exact same

/-- A piece is a literal, or it is marked only if its term calls an aggregate. -/
theorem compile_markedBy (sound : c.functions.Sound) {t : Term} {p : Piece}
    (compiled : t.compile c params = .ok p) : p.MarkedBy c (t.HasAggregate c.functions) := by
  refine markedBy_of_ingredients sound IsAggregate.hasAggregate (fun u among q ended => ?_) compiled
  rcases compile_markedBy sound ended with literal | ⟨open_, marked⟩
  · exact .inl literal
  · exact .inr ⟨open_, fun aggregate => .of_goesThrough (.single among) (marked aggregate)⟩
termination_by t
decreasing_by exact sizeOf_lt_of_mem_ingredients among

end Term

end RowQuery
