import Mathlib.Data.List.Perm.Basic
import RowQuery.Lambda
import RowQuery.Proofs.Truth

/-!
# Connectives

Conjunctions and disjunctions of any number of parts.  Parts that have values are joined as
Kleene's connectives join their truth values, so neither their order nor their grouping matters, and
NOT turns one connective into the other.  A connective inside of another one of its kind may be
flattened whether or not its parts have values: the same part is the first to decide or to fail.
-/

namespace RowQuery

/-- AND or OR. -/
inductive Connective where
  | conjunction
  | disjunction

namespace Connective

/-- The other connective. -/
def dual : Connective → Connective
  | conjunction => disjunction
  | disjunction => conjunction

/-- The truth value with which one part decides the whole. -/
def decisive : Connective → Bool
  | conjunction => false
  | disjunction => true

/-- The connective on two truth values. -/
def truth : Connective → Truth → Truth → Truth
  | conjunction => Truth.and
  | disjunction => Truth.or

/-- The connective on a list of truth values. -/
def truths : Connective → List Truth → Truth
  | conjunction => Truth.all
  | disjunction => Truth.any

/-- The term of several parts. -/
def term : Connective → List Term → Term
  | conjunction => .all
  | disjunction => .any

/-- Two terms joined, without a connective inside of another one where that can be helped. -/
def join : Connective → Term → Term → Term
  | conjunction => Term.and
  | disjunction => Term.or

/-- Two row expressions joined. -/
def joinLambdas : Connective → Lambda → Lambda → Outcome Lambda
  | conjunction => Lambda.and
  | disjunction => Lambda.or

/-- The value of several parts, after parts that have not decided it. -/
def run (connective : Connective) (scope : Scope) (undecided : Bool) (items : List Term) :
    Outcome Value :=
  match connective with
  | conjunction => Term.evalAll scope undecided items
  | disjunction => Term.evalAny scope undecided items

variable {connective : Connective} {scope : Scope} {undecided : Bool}

theorem eval_term (items : List Term) :
    (connective.term items).eval scope = connective.run scope false items := by
  cases connective <;> simp only [term, run, Term.eval]

theorem run_nil :
    connective.run scope undecided [] =
      .ok (if undecided then .null else .bool !connective.decisive) := by
  cases connective <;> simp only [run, Term.evalAll, Term.evalAny, decisive, Bool.not_false,
    Bool.not_true]

/-- A part leaves the value open, decides it or has no say in it. -/
theorem run_cons (item : Term) (items : List Term) :
    connective.run scope undecided (item :: items) =
      item.eval scope >>= fun value =>
        if value.isNull then connective.run scope true items
        else if value.truthy = connective.decisive then .ok (.bool connective.decisive)
        else connective.run scope undecided items := by
  cases connective with
  | conjunction =>
      simp only [run, Term.evalAll, decisive]
      congr 1
      funext value
      cases value.truthy <;> rfl
  | disjunction =>
      simp only [run, Term.evalAny, decisive]
      rfl

/-- Only the outcomes of the parts matter. -/
theorem run_congr {items items' : List Term}
    (each : List.Forall₂ (fun t t' => t.eval scope = t'.eval scope) items items') :
    ∀ undecided, connective.run scope undecided items = connective.run scope undecided items' := by
  induction each with
  | nil => exact fun undecided => rfl
  | cons head _ ih =>
      intro undecided
      rw [run_cons, run_cons, head, ih, ih]

/-! ## Kleene's connectives -/

/-- The value of a list of truth values depends on the first one and the others. -/
theorem truths_cons (t : Truth) (ts : List Truth) :
    connective.truths (t :: ts) = connective.truth t (connective.truths ts) := by
  cases connective <;> rfl

theorem truths_nil : connective.truths [] = some !connective.decisive := by
  cases connective <;> rfl

theorem truth_comm (t u : Truth) : connective.truth t u = connective.truth u t := by
  cases connective
  · exact Truth.and_comm t u
  · exact Truth.or_comm t u

theorem truth_assoc (s t u : Truth) :
    connective.truth (connective.truth s t) u = connective.truth s (connective.truth t u) := by
  cases connective
  · exact Truth.and_assoc s t u
  · exact Truth.or_assoc s t u

/-- The truth value that decides. -/
theorem truth_decisive (t : Truth) :
    connective.truth (some connective.decisive) t = some connective.decisive := by
  cases connective
  · exact Truth.false_and t
  · exact Truth.true_or t

/-- The truth value that has no say. -/
theorem truth_neutral (t : Truth) : connective.truth (some !connective.decisive) t = t := by
  cases connective
  · exact Truth.true_and t
  · exact Truth.false_or t

theorem truths_append (ts us : List Truth) :
    connective.truths (ts ++ us) =
      connective.truth (connective.truths ts) (connective.truths us) := by
  induction ts with
  | nil => rw [List.nil_append, truths_nil, truth_neutral]
  | cons t ts ih => rw [List.cons_append, truths_cons, truths_cons, ih, truth_assoc]

theorem truths_perm {ts us : List Truth} (perm : ts.Perm us) :
    connective.truths ts = connective.truths us := by
  induction perm with
  | nil => rfl
  | cons t _ ih => rw [truths_cons, truths_cons, ih]
  | swap t u ts =>
      rw [truths_cons, truths_cons, truths_cons, truths_cons, ← truth_assoc, truth_comm u t,
        truth_assoc]
  | trans _ _ ih ih' => exact ih.trans ih'

/-- The values of the items. -/
abbrev Yield (scope : Scope) : List Term → List Value → Prop :=
  List.Forall₂ fun t v => t.eval scope = .ok v

/-- What is known before the items is joined with their truth values. -/
theorem run_of_yield {items : List Term} {values : List Value} (yield : Yield scope items values) :
    ∀ undecided, connective.run scope undecided items =
      .ok (.ofTruth (connective.truth (Term.openTruth undecided !connective.decisive)
        (connective.truths (values.map Value.truth)))) := by
  induction yield with
  | nil =>
      intro undecided
      rw [run_nil, List.map_nil, truths_nil]
      cases undecided <;> cases connective <;> rfl
  | @cons item value items values head tail ih =>
      intro undecided
      rw [run_cons, head]
      change (if value.isNull then _ else _) = _
      rw [List.map_cons, truths_cons, ← truth_assoc]
      split
      · rename_i isNull
        rw [ih true, Value.truth_of_isNull isNull]
        cases undecided <;> cases connective <;> rfl
      · rename_i known
        rw [Value.truth_of_not_isNull (by simpa using known)]
        split
        · rename_i decides
          rw [decides, truth_comm (Term.openTruth _ _), truth_decisive, truth_decisive]
          rfl
        · rename_i neutral
          have other : value.truthy = !connective.decisive := by
            cases truthy : value.truthy <;> cases decided : connective.decisive <;> simp_all
          rw [other, truth_comm (Term.openTruth _ _), truth_neutral, ih]

/-- Parts that have values are joined as their truth values are. -/
theorem eval_of_yield {items : List Term} {values : List Value}
    (yield : Yield scope items values) :
    (connective.term items).eval scope =
      .ok (.ofTruth (connective.truths (values.map Value.truth))) := by
  rw [eval_term, run_of_yield yield, Term.openTruth, if_neg Bool.false_ne_true, truth_neutral]

/-! ## Order and grouping -/

/-- The parts are the items in some order, where neighbours may have been put together under the
connective, over and over. -/
inductive Arranges (connective : Connective) (items : List Term) : List Term → Prop
  | refl : Arranges connective items items
  | reorder {parts parts' : List Term} (arranges : Arranges connective items parts)
      (perm : parts.Perm parts') : Arranges connective items parts'
  | group {before inner after : List Term}
      (arranges : Arranges connective items (before ++ (inner ++ after))) :
      Arranges connective items (before ++ connective.term inner :: after)

/-- Parts that are arranged anew have values that come to the same. -/
theorem Arranges.exists_yield {items parts : List Term} (arranges : connective.Arranges items parts)
    {values : List Value} (yield : Yield scope items values) :
    ∃ values', Yield scope parts values' ∧ connective.truths (values'.map Value.truth) =
      connective.truths (values.map Value.truth) := by
  induction arranges with
  | refl => exact ⟨values, yield, rfl⟩
  | reorder _ perm ih =>
      obtain ⟨values', yield', same⟩ := ih
      obtain ⟨values'', yield'', perm'⟩ := List.perm_comp_forall₂ perm.symm yield'
      exact ⟨values'', yield'', (truths_perm (perm'.map _)).trans same⟩
  | @group before inner after _ ih =>
      obtain ⟨values', yield', same⟩ := ih
      obtain ⟨front, rest, yieldFront, yieldRest, rfl⟩ := yield'.exists_of_append
      obtain ⟨middle, back, yieldMiddle, yieldBack, rfl⟩ := yieldRest.exists_of_append
      let grouped := Value.ofTruth (connective.truths (middle.map Value.truth))
      refine ⟨front ++ grouped :: back,
        List.rel_append yieldFront (.cons (eval_of_yield yieldMiddle) yieldBack), ?_⟩
      rw [← same]
      simp only [List.map_append, List.map_cons, truths_append, truths_cons, grouped,
        Value.truth_ofTruth]

/-- Neither the order nor the grouping of parts that have values matters. -/
theorem Arranges.eval_eq {items parts : List Term} (arranges : connective.Arranges items parts)
    {values : List Value} (yield : Yield scope items values) :
    (connective.term parts).eval scope = (connective.term items).eval scope := by
  obtain ⟨values', yield', same⟩ := arranges.exists_yield yield
  rw [eval_of_yield yield', eval_of_yield yield, same]

/-! ## Negation -/

theorem decisive_dual : connective.dual.decisive = !connective.decisive := by
  cases connective <;> rfl

theorem negation_eq (v : Value) :
    Term.negation v = if v.isNull then .null else .bool !v.truthy := by
  cases v <;> rfl

/-- Negated parts leave the value open, decide it or fail where the parts do. -/
theorem run_map_not (items : List Term) : ∀ undecided,
    connective.dual.run scope undecided (items.map .not) =
      (connective.run scope undecided items).map Term.negation := by
  induction items with
  | nil =>
      intro undecided
      rw [List.map_nil, run_nil, run_nil, decisive_dual]
      cases undecided <;> rfl
  | cons item items ih =>
      intro undecided
      rw [List.map_cons, run_cons, run_cons, Term.eval]
      cases item.eval scope with
      | error fault => rfl
      | ok value =>
          change (if (Term.negation value).isNull then _ else _) = Except.map _ (if _ then _ else _)
          rw [ih, ih, decisive_dual]
          rw [negation_eq]
          cases value.isNull
          · cases value.truthy <;> cases connective.decisive <;> rfl
          · rfl

/-- De Morgan's laws. -/
theorem eval_not (items : List Term) :
    (Term.not (connective.term items)).eval scope =
      (connective.dual.term (items.map .not)).eval scope := by
  rw [eval_term, run_map_not, Term.eval, eval_term]
  cases connective.run scope false items <;> rfl

/-! ## Flattening -/

/-- A connective at the front may be flattened: what is known of its own parts is what they would
leave behind themselves. -/
theorem run_flatten_front (inner items : List Term) : ∀ undecided own,
    (connective.run scope own inner >>= fun value =>
      if value.isNull then connective.run scope true items
      else if value.truthy = connective.decisive then .ok (.bool connective.decisive)
      else connective.run scope undecided items) =
      connective.run scope (undecided || own) (inner ++ items) := by
  induction inner with
  | nil =>
      intro undecided own
      rw [run_nil, List.nil_append]
      cases own <;> cases undecided <;> cases connective <;> rfl
  | cons item inner ih =>
      intro undecided own
      rw [run_cons, List.cons_append, run_cons]
      cases item.eval scope with
      | error fault => rfl
      | ok value =>
          change (if _ then _ else _ : Outcome Value) >>= _ = if _ then _ else _
          split
          · rw [ih, Bool.or_true]
          · split
            · cases connective <;> rfl
            · rw [ih]

/-- A connective inside of another one of its kind may be flattened. -/
theorem run_flatten (before inner after : List Term) : ∀ undecided,
    connective.run scope undecided (before ++ connective.term inner :: after) =
      connective.run scope undecided (before ++ (inner ++ after)) := by
  induction before with
  | nil =>
      intro undecided
      rw [List.nil_append, List.nil_append, run_cons, eval_term, run_flatten_front, Bool.or_false]
  | cons item before ih =>
      intro undecided
      rw [List.cons_append, List.cons_append, run_cons, run_cons, ih, ih]

/-- A join is the connective on the two terms, flattened where a side is one itself. -/
theorem join_eq (connective : Connective) (a b : Term) :
    (∃ ls rs, a = connective.term ls ∧ b = connective.term rs ∧
      connective.join a b = connective.term (ls ++ rs)) ∨
    (∃ ls, a = connective.term ls ∧ connective.join a b = connective.term (ls ++ [b])) ∨
    connective.join a b = connective.term [a, b] := by
  cases connective <;> cases a <;> cases b <;> simp [join, term, Term.and, Term.or]

theorem eval_join (a b : Term) :
    (connective.join a b).eval scope = (connective.term [a, b]).eval scope := by
  obtain ⟨ls, rs, rfl, rfl, joined⟩ | ⟨ls, rfl, joined⟩ | joined := connective.join_eq a b
  · have left : connective.run scope false [connective.term ls, connective.term rs] =
        connective.run scope false (ls ++ [connective.term rs]) :=
      run_flatten [] ls [connective.term rs] false
    have right := @run_flatten connective scope ls rs [] false
    rw [List.append_nil] at right
    rw [joined, eval_term, eval_term, left, right]
  · rw [joined, eval_term, eval_term]
    exact (run_flatten [] ls [b] false).symm
  · rw [joined]

/-! ## Row expressions -/

/-- The two terms under the connective, as they are. -/
def pair (connective : Connective) (a b : Term) : Term :=
  connective.term [a, b]

theorem arity_pair_le (a b : Term) : (connective.pair a b).arity ≤ max a.arity b.arity := by
  cases connective <;> simp [pair, term, Term.arity, Term.arities]

theorem arity_join_le (a b : Term) : (connective.join a b).arity ≤ max a.arity b.arity := by
  cases connective
  · exact Lambda.arity_and_le a b
  · exact Lambda.arity_or_le a b

theorem joinLambdas_eq : connective.joinLambdas = Lambda.combine connective.join := by
  cases connective <;> rfl

/-- Row expressions of equal arity can be put together by any function that needs no more rows than
its two sides. -/
theorem combine_eq_ok {function : Term → Term → Term} {l r : Lambda} (arity : l.arity = r.arity)
    (le : (function l.body r.body).arity ≤ max l.body.arity r.body.arity) :
    ∃ bound, Lambda.combine function l r = .ok ⟨l.params, function l.body r.body, bound⟩ := by
  have right : r.body.arity ≤ l.params.length := Nat.le_trans r.bound (Nat.le_of_eq arity.symm)
  have bound : (function l.body r.body).arity ≤ l.params.length :=
    Nat.le_trans le (Nat.max_le.2 ⟨l.bound, right⟩)
  exact ⟨bound, by rw [Lambda.combine, if_pos arity, Lambda.make, dif_pos bound]⟩

/-- Row expressions of equal arity can be joined. -/
theorem joinLambdas_eq_ok (connective : Connective) {l r : Lambda} (arity : l.arity = r.arity) :
    (∃ bound, connective.joinLambdas l r =
        .ok ⟨l.params, connective.join l.body r.body, bound⟩) ∧
      ∃ bound, Lambda.combine connective.pair l r =
        .ok ⟨l.params, connective.pair l.body r.body, bound⟩ :=
  ⟨joinLambdas_eq ▸ combine_eq_ok arity (connective.arity_join_le l.body r.body),
    combine_eq_ok arity (connective.arity_pair_le l.body r.body)⟩

/-- Joined row expressions have, value or fault, the outcome of the two bodies as they are. -/
theorem evaluate_joinLambdas (l r : Lambda) :
    (connective.joinLambdas l r >>= (·.evaluate scope)) =
      (Lambda.combine connective.pair l r >>= (·.evaluate scope)) := by
  by_cases arity : l.arity = r.arity
  · obtain ⟨⟨_, joined⟩, _, plain⟩ := connective.joinLambdas_eq_ok arity
    rw [joined, plain]
    change Lambda.evaluate _ scope = Lambda.evaluate _ scope
    rw [Lambda.evaluate, Lambda.evaluate]
    exact if_congr Iff.rfl (eval_join l.body r.body) rfl
  · rw [joinLambdas_eq, Lambda.combine, Lambda.combine, if_neg arity, if_neg arity]

/-- Both connectives are those of Kleene on parts that have values, in any order and grouping and
under NOT.  Joining terms or row expressions comes, fault or value, to the connective on the two
sides as they are. -/
theorem connectives_are_kleene (connective : Connective) (scope : Scope) :
    (∀ items values, Yield scope items values →
      (connective.term items).eval scope =
          .ok (.ofTruth (connective.truths (values.map Value.truth))) ∧
        (∀ parts, connective.Arranges items parts →
          (connective.term parts).eval scope = (connective.term items).eval scope) ∧
        (Term.not (connective.term items)).eval scope =
          (connective.dual.term (items.map .not)).eval scope) ∧
      (∀ a b, (connective.join a b).eval scope = (connective.pair a b).eval scope) ∧
      ∀ l r : Lambda,
        (l.arity = r.arity →
          (∃ joined, connective.joinLambdas l r = .ok joined) ∧
            ∃ plain : Lambda, Lambda.combine connective.pair l r = .ok plain ∧
              plain.params = l.params ∧ plain.body = connective.pair l.body r.body) ∧
        (connective.joinLambdas l r >>= (·.evaluate scope)) =
          (Lambda.combine connective.pair l r >>= (·.evaluate scope)) := by
  refine ⟨fun items values yield => ⟨eval_of_yield yield, fun parts arranges =>
    arranges.eval_eq yield, eval_not items⟩, eval_join, fun l r => ⟨fun arity => ?_,
    evaluate_joinLambdas l r⟩⟩
  obtain ⟨⟨_, joined⟩, _, plain⟩ := connective.joinLambdas_eq_ok arity
  exact ⟨⟨_, joined⟩, _, plain, rfl, rfl⟩

section Unpriced

/-- A row whose price is not known. -/
def unpriced : Scope :=
  { rows := [[("price", .null)]] }

/-- The price of the row. -/
def price : Term :=
  .field (.param 0) "price"

/-- The price, which is not known, the number 2 and the other way round in a group of their own. -/
theorem arranges_price : conjunction.Arranges [price, .constant (.int 2), .constant (.bool false)]
    [.all [.constant (.bool false), price], .constant (.int 2)] := by
  have turned : conjunction.Arranges [price, .constant (.int 2), .constant (.bool false)]
      [.constant (.bool false), price, .constant (.int 2)] :=
    .reorder .refl (.trans (.cons _ (.swap _ _ _)) (.swap _ _ _))
  exact @Arranges.group _ _ [] [.constant (.bool false), price] _ turned

/-- A part that is not known does not hide one that is false, wherever it stands. -/
theorem kleene_of_unpriced :
    (Term.all [price, .constant (.int 2), .constant (.bool false)]).eval unpriced =
        .ok (.bool false) ∧
      (Term.all [.all [.constant (.bool false), price], .constant (.int 2)]).eval unpriced =
        .ok (.bool false) := by
  have yield : Yield unpriced [price, .constant (.int 2), .constant (.bool false)]
      [.null, .int 2, .bool false] := .cons rfl (.cons rfl (.cons rfl .nil))
  obtain ⟨value, same, -⟩ := (connectives_are_kleene conjunction unpriced).1 _ _ yield
  exact ⟨value, (same _ arranges_price).trans value⟩

end Unpriced

end Connective

end RowQuery
