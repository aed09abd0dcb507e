import RowQuery.Proofs.Integral.Term
import RowQuery.Proofs.Kind.Piece
import RowQuery.Proofs.Reach.Function

/-!
# What compiled pieces obey

Every step of the compiler keeps the laws of the pieces that it puts together.  One law is that the
SQL of a piece is an expression over the tables of its context, and that the piece is marked as an
aggregate if it calls one.
-/

namespace RowQuery

open RowQuery.Sql BuiltinDialect

/-- The labels of some tables; columns are qualified if there are several. -/
def Sql.Reach.ofBindings (bindings : List Binding) : Reach :=
  ⟨bindings.map Binding.label, decide (bindings.length > 1)⟩

/-- The tables of a context. -/
def CompileContext.reach (c : CompileContext) : Reach :=
  .ofBindings c.bindings

/-- What is compiled is written by a built-in dialect, with columns that are quoted in its way and
functions that keep their reach. -/
structure CompileContext.Regular (c : CompileContext) (d : BuiltinDialect) : Prop where
  dialect : c.dialect = d.dialect
  functions : c.functions.KeepsReach
  columns : c.QuotesColumns

/-- The law holds of the SQL of a fragment, which is an aggregate only if it is marked. -/
def Sql.Fragment.Obeys {d : BuiltinDialect} (law : d.Law) (f : Fragment) : Prop :=
  law.Holds f.aggregate f.sql

/-- The SQL of a fragment is an expression in reach, and an aggregate only if it is marked. -/
def Sql.Fragment.Reaches (d : BuiltinDialect) (reach : Reach) (f : Fragment) : Prop :=
  f.Obeys (d.reachLaw reach)

/-- A fragment that is not marked calls no aggregate. -/
theorem Sql.Fragment.Reaches.inReach {d : BuiltinDialect} {reach : Reach} {f : Fragment}
    (reaches : f.Reaches d reach) (plain : f.aggregate = false) : d.InReach reach false f.sql := by
  rw [Reaches, Obeys, plain] at reaches
  exact reaches

namespace Sql.Fragment

variable {d : BuiltinDialect} {law : d.Law} {aggregates : Bool} {l r : Fragment} {sql : String}

theorem holds_operandText (right : law.Holds aggregates r.sql) :
    law.Holds aggregates (operandText d.dialect l r) := by
  unfold operandText
  split
  · split
    · split
      · rename_i encoded
        exact holds_encode encoded
      · exact right
    · exact right
  · exact right

theorem holds_compare? {op : Comparison} (left : law.Holds aggregates l.sql)
    (right : law.Holds aggregates r.sql) (written : l.compare? d.dialect op r = some sql) :
    law.Holds aggregates sql := by
  have text := holds_operandText (l := l) right
  have plain {accepted : Prop} [Decidable accepted] (written : (if accepted then
      some (d.dialect.compare l.sql op (operandText d.dialect l r)) else none) = some sql) :
      law.Holds aggregates sql := by
    split at written
    · exact Option.some.inj written ▸ holds_compare left op text
    · cases written
  unfold compare? at written
  dsimp only at written
  split at written
  · cases written
  · cases written
  · cases written
  · exact plain written
  · exact plain written
  · exact plain written
  · split at written
    · exact Option.some.inj written ▸ holds_compareText left op text
    · cases written
  · exact plain written

theorem holds_numericArithmetic? {op : Arithmetic} (left : law.Holds aggregates l.sql)
    (right : law.Holds aggregates r.sql)
    (written : numericArithmetic? d.dialect l op r = some sql) :
    law.Holds aggregates sql := by
  have text := holds_operandText (l := l) right
  unfold numericArithmetic? at written
  dsimp only at written
  split at written
  · split at written
    · exact holds_dateArithmetic written left right
    · obtain rfl := Option.some.inj written
      exact holds_arithmetic left op right
  · split at written
    · cases written
    · repeat' split at written
      all_goals cases written
      · exact holds_trueDivide left text
      · exact holds_arithmetic left .div text
      · exact holds_floorModulo left text
      · exact holds_arithmetic left op text

theorem holds_secondsArithmetic? {op : Arithmetic} (left : law.Holds aggregates l.sql)
    (right : law.Holds aggregates r.sql)
    (written : secondsArithmetic? d.dialect l op r = some sql) :
    law.Holds aggregates sql := by
  have text := holds_operandText (l := l) right
  have plain {op : Arithmetic} {text : String} (inside : law.Holds aggregates text)
      (written : some (d.dialect.arithmetic l.sql op text) = some sql) :
      law.Holds aggregates sql :=
    Option.some.inj written ▸ holds_arithmetic left op inside
  unfold secondsArithmetic? at written
  split at written
  · exact plain text written
  · exact plain text written
  · exact plain text written
  · exact plain right written
  · exact plain right written
  · exact plain right written
  · exact plain right written
  · exact holds_dateArithmetic written left right
  · exact holds_dateArithmetic written left right
  · cases written

theorem holds_arithmetic? {op : Arithmetic} (left : law.Holds aggregates l.sql)
    (right : law.Holds aggregates r.sql)
    (written : l.arithmetic? d.dialect op r = some sql) : law.Holds aggregates sql := by
  have text := holds_operandText (l := l) right
  unfold arithmetic? at written
  split at written
  · exact holds_numericArithmetic? left right written
  · exact holds_numericArithmetic? left right written
  · exact holds_numericArithmetic? left right written
  · split at written
    · obtain rfl := Option.some.inj written
      exact holds_concat left text
    · cases written
  · split at written
    · obtain rfl := Option.some.inj written
      exact holds_concat left text
    · cases written
  · exact holds_dateArithmetic written left right
  · exact holds_dateArithmetic written left right
  · exact holds_dateArithmetic written left right
  · exact holds_secondsArithmetic? left right written
  · cases written

end Sql.Fragment

namespace CompileContext

open Sql.Fragment

variable {c : CompileContext} {d : BuiltinDialect} {law : d.Law} {p l r : Piece}

variable (regular : c.Regular d)

include regular

/-! ## Literals and columns -/

theorem obeys_truth {value : Bool} (compiled : c.truth value = .ok p) :
    p.fragment.Obeys law := by
  obtain ⟨type, rfl⟩ := truth_eq_ok compiled
  rw [regular.dialect]
  exact holds_truthClause value

omit regular in
theorem obeys_test {sql : String} {aggregate exact_ : Bool}
    (holds : law.Holds aggregate sql)
    (compiled : c.test sql aggregate exact_ = .ok p) : p.fragment.Obeys law := by
  obtain ⟨type, rfl⟩ := test_eq_ok compiled
  exact holds

theorem obeys_literal {v : Value} (compiled : c.literal v = .ok p) :
    p.fragment.Obeys law := by
  by_cases isBool : v.kind = .bool
  · cases v with
    | bool b => exact obeys_truth regular compiled
    | _ => cases isBool
  · obtain ⟨sql, type, written, rfl⟩ := literal_eq_ok compiled isBool
    unfold literalText at written
    rw [regular.dialect] at written
    split at written
    · obtain rfl := Except.ok.inj written
      exact .of_closes (by cases d <;> rfl)
    · exact holds_encode written

theorem reaches_column {index : Nat} {key : String} (compiled : c.column index key = .ok p) :
    p.fragment.Reaches d c.reach := by
  obtain ⟨b, column, bound, found, rfl⟩ := exists_of_column compiled
  have member := List.mem_of_getElem? bound
  have quoted := regular.columns b member _ (Table.mem_of_lookup found)
  have label : b.label ∈ c.reach.labels := List.mem_map_of_mem member
  rw [regular.dialect] at quoted
  change d.InReach c.reach false (if c.bindings.length > 1 then _ else _)
  rw [quoted, regular.dialect]
  split
  · rename_i several
    refine ⟨_, lexemes?_qualified _ _, ?_, rfl⟩
    simp [Reach.Allows, Reach.Column, reach, Reach.ofBindings, several]
    exact ⟨b, member, rfl⟩
  · rename_i single
    refine ⟨_, lexemes?_quoteName _, ?_, rfl⟩
    simp [Reach.Allows, Reach.Column, reach, Reach.ofBindings, single]

/-! ## Conditions and operands -/

theorem obeys_asCondition (obeys : p.fragment.Obeys law) {q : Piece}
    (compiled : c.asCondition p = .ok q) : q.fragment.Obeys law := by
  rcases asCondition_eq_ok compiled with ⟨-, rfl⟩ | ⟨u, -, ended⟩ | ⟨truth, -, encoded, tested⟩
  · exact obeys
  · exact obeys_truth regular ended
  · unfold Fragment.encode at encoded
    rw [regular.dialect] at encoded tested
    exact obeys_test (holds_compare obeys .eq (holds_encode encoded)) tested

theorem obeys_operand (obeys : p.fragment.Obeys law) :
    (c.operand p).Obeys law := by
  unfold operand
  split
  · rw [regular.dialect]
    exact holds_truthLiteral _
  · split
    · exact Law.Holds.bracketed obeys
    · exact obeys

/-- Of two operands each obeys the law of both. -/
theorem holds_operands (left : l.fragment.Obeys law)
    (right : r.fragment.Obeys law) :
    law.Holds (l.fragment.aggregate || r.fragment.aggregate) (c.operand l).sql ∧
      law.Holds (l.fragment.aggregate || r.fragment.aggregate) (c.operand r).sql := by
  have left := obeys_operand regular left
  have right := obeys_operand regular right
  rw [Fragment.Obeys, aggregate_operand] at left right
  exact ⟨left.weaken fun marked => by rw [marked, Bool.true_or],
    right.weaken fun marked => by rw [marked, Bool.or_true]⟩

/-! ## Comparisons and arithmetic -/

omit regular in
theorem holds_nullTest {aggregates : Bool} {sql : String}
    (holds : law.Holds aggregates sql) (negated : Bool) :
    law.Holds aggregates (nullTest sql negated) := by
  unfold nullTest
  cases negated with
  | true =>
      have closed : law.Reads aggregates 0 " IS NOT NULL" := law.closing (by cases d <;> rfl)
      exact law.operand holds (separated_of_head rfl rfl) closed
  | false =>
      have closed : law.Reads aggregates 0 " IS NULL" := law.closing (by cases d <;> rfl)
      exact law.operand holds (separated_of_head rfl rfl) closed

theorem holds_compareFragments {aggregates : Bool} {f g : Fragment} {op : Comparison}
    {sql : String} (left : law.Holds aggregates f.sql)
    (right : law.Holds aggregates g.sql) (written : c.compareFragments f op g = some sql) :
    law.Holds aggregates sql := by
  unfold compareFragments at written
  rw [regular.dialect] at written
  rcases (Option.orElse_eq_some _ _ _).1 written with first | ⟨-, second⟩
  · exact holds_compare? left right first
  · exact holds_compare? right left second

theorem obeys_compareOpen {op : Comparison} (left : l.fragment.Obeys law)
    (right : r.fragment.Obeys law) (compiled : c.compareOpen l op r = .ok p) :
    p.fragment.Obeys law := by
  obtain ⟨left, right⟩ := holds_operands regular left right
  obtain ⟨sql, tested, written⟩ := compareOpen_eq_ok compiled
  refine obeys_test ?_ tested
  rcases written with ⟨-, rfl⟩ | ⟨-, rfl⟩ | written | written
  · exact holds_nullTest right _
  · exact holds_nullTest left _
  · exact holds_compareFragments regular right left written
  · exact holds_compareFragments regular left right written

theorem obeys_compare {shown : String} {op : Comparison} (left : l.fragment.Obeys law)
    (right : r.fragment.Obeys law) (compiled : c.compare shown l op r = .ok p) :
    p.fragment.Obeys law := by
  rcases compare_eq_ok compiled with ⟨u, w, answer, -, -, -, ended⟩ | ⟨-, open_⟩
  · exact obeys_truth regular ended
  · exact obeys_compareOpen regular left right open_

theorem obeys_arithmetic {op : Arithmetic} (left : l.fragment.Obeys law)
    (right : r.fragment.Obeys law) (compiled : c.arithmetic l op r = .ok p) :
    p.fragment.Obeys law := by
  obtain ⟨left, right⟩ := holds_operands regular left right
  rcases arithmetic_eq_ok compiled with ⟨k, k', u, -, -, -, literal⟩ |
    ⟨-, kind, sql, type, -, written, rfl⟩
  · exact obeys_literal regular literal
  · rw [regular.dialect] at written
    exact holds_arithmetic? left right written

theorem obeys_negation (obeys : l.fragment.Obeys law)
    (compiled : c.negation l = .ok p) : p.fragment.Obeys law := by
  unfold negation at compiled
  split at compiled
  · exact obeys_truth regular compiled
  · have bracketed : law.Holds l.fragment.aggregate (Text.bracketed l.fragment.sql) :=
      Law.Holds.bracketed obeys
    exact obeys_test (law.opening (by cases d <;> rfl) bracketed) compiled

theorem obeys_negative (obeys : l.fragment.Obeys law)
    (compiled : c.negative l = .ok p) : p.fragment.Obeys law := by
  rcases negative_eq_ok compiled with ⟨k, u, -, -, literal⟩ | ⟨-, -, rfl⟩
  · exact obeys_literal regular literal
  · exact Law.Holds.enclosed obeys 1 (by cases d <;> rfl) separated_bracket (by cases d <;> rfl)

/-! ## Membership -/

theorem obeys_memberFragments {item : Fragment} {members : List Piece} {fragments : List Fragment}
    (each : ∀ p ∈ members, p.fragment.Obeys law)
    (compiled : c.memberFragments item members = .ok fragments) :
    ∀ f ∈ fragments, f.Obeys law := by
  induction members generalizing fragments with
  | nil =>
      obtain rfl := Except.ok.inj compiled
      simp
  | cons member members ih =>
      rw [List.forall_mem_cons] at each
      rw [memberFragments] at compiled
      split at compiled
      · exact ih each.2 compiled
      · split at compiled
        · cases compiled
        · obtain ⟨rest, later, ended⟩ := Except.bind_eq_ok_iff.1 compiled
          obtain rfl := Except.ok.inj ended
          exact List.forall_mem_cons.2 ⟨obeys_operand regular each.1, ih each.2 later⟩

omit regular in
theorem holds_memberText {aggregates : Bool} {item : Fragment}
    {members : List String} (holds : law.Holds aggregates item.sql)
    (each : ∀ sql ∈ members, law.Holds aggregates sql) (hasNull negated : Bool) :
    law.Holds aggregates (memberText item members hasNull negated) := by
  have test := holds_nullTest holds negated
  have listed := (Law.Holds.list each).bracketed
  have among : law.Holds aggregates
      (item.sql ++ (if negated then " NOT IN " else " IN ") ++
        Text.bracketed (Text.join ", " members)) := by
    rw [String.append_assoc]
    cases negated with
    | true => exact holds.beside listed (separated_of_head rfl rfl) (by decide) (by cases d <;> rfl)
    | false => exact holds.beside listed (separated_of_head rfl rfl) (by decide) (by cases d <;> rfl)
  unfold memberText
  dsimp only
  split
  · exact test
  · split
    · refine Law.Holds.bracketed ?_
      rw [String.append_assoc]
      cases negated with
      | true => exact among.beside test (separated_of_head rfl rfl) (by decide) (by cases d <;> rfl)
      | false => exact among.beside test (separated_of_head rfl rfl) (by decide) (by cases d <;> rfl)
    · exact among

theorem obeys_member {item : Piece} {members : List Piece} {negated : Bool}
    (obeys : item.fragment.Obeys law) (each : ∀ p ∈ members, p.fragment.Obeys law)
    (compiled : c.member item members negated = .ok p) : p.fragment.Obeys law := by
  rcases member_eq_ok compiled with ⟨-, ended⟩ | ⟨rights, written, tested⟩
  · exact obeys_truth regular ended
  · have inside := obeys_memberFragments regular each written
    have left := obeys_operand regular obeys
    rw [Fragment.Obeys, aggregate_operand] at left
    refine obeys_test (holds_memberText ?_ ?_ _ negated) tested
    · exact left.weaken fun marked => by rw [marked, Bool.true_or]
    · intro sql member
      obtain ⟨right, among, rfl⟩ := List.mem_map.1 member
      rw [regular.dialect]
      refine holds_operandText ((inside right among).weaken fun marked => ?_)
      rw [Bool.or_eq_true, List.any_eq_true]
      exact .inr ⟨right, among, marked⟩

theorem obeys_substring {text piece : Piece} {negated : Bool}
    (inText : text.fragment.Obeys law) (inPiece : piece.fragment.Obeys law)
    (compiled : c.substring text piece negated = .ok p) : p.fragment.Obeys law := by
  obtain ⟨left, right⟩ := holds_operands regular inText inPiece
  obtain ⟨test, rendered, sql, exact_, written, tested⟩ := substring_eq_ok compiled
  rw [regular.dialect] at rendered
  have holds := Function.holds_affix left right rendered
  refine obeys_test ?_ tested
  rcases written with rfl | rfl
  · exact holds
  · exact law.opening (by cases d <;> rfl) (Law.Holds.bracketed holds)

theorem obeys_contains {item collection : Piece} {negated : Bool}
    (inItem : item.fragment.Obeys law) (inWhole : collection.fragment.Obeys law)
    (compiled : c.contains item collection negated = .ok p) : p.fragment.Obeys law := by
  rcases contains_eq_ok compiled with ⟨u, w, found, -, -, -, ended⟩ |
    ⟨values, members, -, written, ended⟩ | within
  · exact obeys_truth regular ended
  · have each : ∀ member ∈ members, member.fragment.Obeys law := by
      intro member among
      obtain ⟨v, -, literal⟩ := written.flip.exists_of_mem among
      exact obeys_literal regular literal
    exact obeys_member regular inItem each ended
  · exact obeys_substring regular inWhole inItem within

/-! ## Fields, calls and junctions -/

theorem obeys_field {name : String} (obeys : l.fragment.Obeys law)
    (compiled : c.field l name = .ok p) : p.fragment.Obeys law := by
  rcases field_eq_ok compiled with ⟨k, u, -, -, literal⟩ | ⟨part, rendering, rendered, rfl⟩
  · exact obeys_literal regular literal
  · rw [regular.dialect] at rendered
    exact Function.holds_extract? obeys rendered

theorem obeys_call {f : Function} {name : String} {pieces : List Piece} (keeps : f.Keeps law)
    (each : ∀ p ∈ pieces, p.fragment.Obeys law)
    (compiled : c.call name f pieces = .ok p) : p.fragment.Obeys law := by
  rcases call_eq_ok compiled with ⟨ks, u, -, -, -, literal⟩ | written
  · exact obeys_literal regular literal
  · obtain ⟨rendering, rendered, rfl⟩ := rendered_eq_ok written
    rw [regular.dialect] at rendered
    change law.Holds (f.aggregate || (pieces.map c.operand).any Fragment.aggregate)
      rendering.fragment.sql
    refine keeps _ _ rendering (fun operand member => ?_) (fun marked => ?_) rendered
    · obtain ⟨piece, among, rfl⟩ := List.mem_map.1 member
      refine (obeys_operand regular (each piece among)).weaken fun marked => ?_
      rw [Bool.or_eq_true, List.any_eq_true]
      exact .inr ⟨_, member, marked⟩
    · rw [marked, Bool.true_or]

theorem obeys_junction {parts : List (Option Piece)} {conjunction : Bool}
    (each : ∀ p, some p ∈ parts → p.fragment.Obeys law)
    (compiled : c.junction parts conjunction = .ok p) : p.fragment.Obeys law := by
  unfold junction at compiled
  split at compiled
  · exact obeys_truth regular compiled
  · refine obeys_test ?_ compiled
    generalize marked : parts.any (fun part => part.any fun p => p.fragment.aggregate) = aggregates
    have texts : ∀ text ∈ parts.map c.partText, law.Holds aggregates text := by
      intro text member
      obtain ⟨part, among, rfl⟩ := List.mem_map.1 member
      cases part with
      | none =>
          rw [partText, regular.dialect]
          exact holds_truthClause true
      | some q =>
          refine (each q among).weaken fun aggregate => ?_
          rw [← marked, List.any_eq_true]
          exact ⟨some q, among, aggregate⟩
    split
    · rename_i text single
      exact texts text (by rw [single]; simp)
    · refine Law.Holds.bracketed (Law.Holds.join ?_ ?_ ?_ texts)
      · cases conjunction <;> exact separated_of_head rfl rfl
      · cases conjunction <;> decide
      · cases conjunction <;> cases d <;> rfl

end CompileContext

end RowQuery
