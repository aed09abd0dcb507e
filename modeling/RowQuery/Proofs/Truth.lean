import RowQuery.Evaluate
import RowQuery.Proofs.Steps

/-!
# Truth values

Conditions are true, false or unknown, and AND, OR and NOT are the connectives of
Kleene.  This file relates them to the evaluation of conjunctions and
disjunctions.  An evaluation stops at the first part that decides it, so parts
behind that one need not have a value at all; what is needed of the way in which
truth values are compared is stated once, as an agreement.
-/

namespace RowQuery

/-- A truth value; `none` is unknown. -/
abbrev Truth := Option Bool

namespace Truth

/-- NOT. -/
def not : Truth → Truth :=
  Option.map Bool.not

/-- AND: a false side decides. -/
def and : Truth → Truth → Truth
  | some false, _ | _, some false => some false
  | some true, some true => some true
  | _, _ => none

/-- OR: a true side decides. -/
def or : Truth → Truth → Truth
  | some true, _ | _, some true => some true
  | some false, some false => some false
  | _, _ => none

/-- AND over a list. -/
def all (truths : List Truth) : Truth :=
  truths.foldr and (some true)

/-- OR over a list. -/
def any (truths : List Truth) : Truth :=
  truths.foldr or (some false)

/-- The answer of a search, which is left open only when nothing is found. -/
def ofSearch (found undecided : Bool) : Truth :=
  if found then some true else if undecided then none else some false

theorem or_ofSearch (f u f' u' : Bool) :
    or (ofSearch f u) (ofSearch f' u') = ofSearch (f || f') (u || u') := by
  cases f <;> cases u <;> cases f' <;> cases u' <;> rfl

theorem false_and (t : Truth) : and (some false) t = some false := by
  rcases t with _ | _ | _ <;> rfl

theorem true_and (t : Truth) : and (some true) t = t := by
  rcases t with _ | _ | _ <;> rfl

theorem and_true (t : Truth) : and t (some true) = t := by
  rcases t with _ | _ | _ <;> rfl

theorem true_or (t : Truth) : or (some true) t = some true := by
  rcases t with _ | _ | _ <;> rfl

theorem false_or (t : Truth) : or (some false) t = t := by
  rcases t with _ | _ | _ <;> rfl

theorem or_false (t : Truth) : or t (some false) = t := by
  rcases t with _ | _ | _ <;> rfl

theorem and_comm (t u : Truth) : and t u = and u t := by
  rcases t with _ | _ | _ <;> rcases u with _ | _ | _ <;> rfl

theorem or_comm (t u : Truth) : or t u = or u t := by
  rcases t with _ | _ | _ <;> rcases u with _ | _ | _ <;> rfl

theorem and_assoc (s t u : Truth) : and (and s t) u = and s (and t u) := by
  rcases s with _ | _ | _ <;> rcases t with _ | _ | _ <;> rcases u with _ | _ | _ <;> rfl

theorem or_assoc (s t u : Truth) : or (or s t) u = or s (or t u) := by
  rcases s with _ | _ | _ <;> rcases t with _ | _ | _ <;> rcases u with _ | _ | _ <;> rfl

theorem not_or (t u : Truth) : (or t u).not = and t.not u.not := by
  rcases t with _ | _ | _ <;> rcases u with _ | _ | _ <;> rfl

@[simp]
theorem all_nil : all [] = some true :=
  rfl

@[simp]
theorem all_cons (t : Truth) (ts : List Truth) : all (t :: ts) = and t (all ts) :=
  rfl

@[simp]
theorem any_nil : any [] = some false :=
  rfl

@[simp]
theorem any_cons (t : Truth) (ts : List Truth) : any (t :: ts) = or t (any ts) :=
  rfl

/-- Where the first truth value is decided the second agrees with it. -/
def Refines (t u : Truth) : Prop :=
  ∀ b, t = some b → u = some b

/-- Where the first truth value is true the second is true. -/
def Implies (t u : Truth) : Prop :=
  t = some true → u = some true

/-- A way to compare truth values that conjunctions and disjunctions respect, also
those whose later parts are left open once an earlier one decides. -/
structure Agreement (R : Truth → Truth → Prop) : Prop where
  refl : ∀ t, R t t
  and : ∀ {t u t' u'}, R t u → R t' u' → R (t.and t') (u.and u')
  or : ∀ {t u t' u'}, R t u → R t' u' → R (t.or t') (u.or u')
  false_and : ∀ {u} (u'), R (some false) u → R (some false) (u.and u')
  true_or : ∀ {u} (u'), R (some true) u → R (some true) (u.or u')

theorem agreement_eq : Agreement Eq where
  refl _ := rfl
  and first second := by rw [first, second]
  or first second := by rw [first, second]
  false_and u' same := by rw [← same, false_and]
  true_or u' same := by rw [← same, true_or]

theorem agreement_refines : Agreement Refines where
  refl _ _ decided := decided
  and {t u t' u'} first second b decided := by
    rcases t with _ | _ | _ <;> rcases t' with _ | _ | _ <;>
      simp_all [Refines, Truth.and]
    rcases u with _ | _ | _ <;> rfl
  or {t u t' u'} first second b decided := by
    rcases t with _ | _ | _ <;> rcases t' with _ | _ | _ <;>
      simp_all [Refines, Truth.or]
    rcases u with _ | _ | _ <;> rfl
  false_and u' same b decided := by
    rw [same false rfl, false_and]
    exact decided
  true_or u' same b decided := by
    rw [same true rfl, true_or]
    exact decided

theorem agreement_implies : Agreement Implies where
  refl _ holds := holds
  and {t u t' u'} first second holds := by
    rcases t with _ | _ | _ <;> rcases t' with _ | _ | _ <;>
      simp_all [Implies, Truth.and]
  or {t u t' u'} first second holds := by
    rcases t with _ | _ | _ <;> rcases t' with _ | _ | _ <;>
      simp_all [Implies, Truth.or]
    all_goals rcases u with _ | _ | _ <;> rfl
  false_and _ _ holds := by simp at holds
  true_or u' same _ := by rw [same rfl, true_or]

theorem Refines.not {t u : Truth} (refines : Refines t u) : Refines t.not u.not := by
  intro b decided
  cases t with
  | none => simp [Truth.not] at decided
  | some value =>
      rw [refines value rfl]
      exact decided

theorem Refines.implies {t u : Truth} (refines : Refines t u) : Implies t u :=
  refines true

end Truth

namespace Value

/-- The truth value of a value: that of NULL is unknown. -/
def truth (v : Value) : Truth :=
  if v.isNull then none else some v.truthy

theorem truth_of_isNull {v : Value} (isNull : v.isNull = true) : v.truth = none := by
  simp [truth, isNull]

theorem truth_of_not_isNull {v : Value} (isNull : v.isNull = false) :
    v.truth = some v.truthy := by
  simp [truth, isNull]

@[simp]
theorem truth_bool (b : Bool) : (bool b).truth = some b :=
  rfl

@[simp]
theorem truth_null : null.truth = none :=
  rfl

theorem truth_refines (v : Value) : Truth.Refines v.truth (some v.truthy) := by
  cases v <;> exact fun _ decided => by cases decided <;> rfl

theorem truth_eq_true_iff {v : Value} : v.truth = some true ↔ v.truthy = true := by
  cases v <;> simp [truth, isNull, truthy]

/-- The value of a truth value. -/
def ofTruth : Truth → Value
  | some b => bool b
  | none => null

@[simp]
theorem truth_ofTruth (t : Truth) : (ofTruth t).truth = t := by
  rcases t with _ | _ | _ <;> rfl

theorem truth_negation (v : Value) : (Term.negation v).truth = v.truth.not := by
  cases v <;> rfl

end Value

namespace Term

open Truth

/-- The values of several terms are those of each. -/
theorem evalItems_eq_ok_iff {scope : Scope} {items : List Term} {values : List Value} :
    evalItems scope items = .ok values ↔
      List.Forall₂ (fun t v => t.eval scope = .ok v) items values := by
  induction items generalizing values with
  | nil =>
      rw [evalItems, List.forall₂_nil_left_iff]
      exact ⟨fun ended => (Except.ok.inj ended).symm, fun empty => empty ▸ rfl⟩
  | cons item items ih =>
      rw [evalItems, Except.bind_eq_ok_iff, List.forall₂_cons_left_iff]
      constructor
      · rintro ⟨v, head, rest⟩
        obtain ⟨vs, tail, ended⟩ := Except.bind_eq_ok_iff.1 rest
        exact ⟨v, vs, head, ih.1 tail, (Except.ok.inj ended).symm⟩
      · rintro ⟨v, vs, head, tail, rfl⟩
        exact ⟨v, head, Except.bind_eq_ok_iff.2 ⟨vs, ih.2 tail, rfl⟩⟩

/-- What a conjunction or disjunction knows of its earlier parts when these did
not decide it. -/
def openTruth (undecided idle : Bool) : Truth :=
  if undecided then none else some idle

/-- Truth values that agree with the parts of a conjunction as far as these are
evaluated. -/
abbrev PartsAgree (R : Truth → Truth → Prop) (scope : Scope) : List Term → List Truth → Prop :=
  List.Forall₂ fun t truth => ∀ v, t.eval scope = .ok v → R v.truth truth

/-- A conjunction evaluates to the conjunction of truth values that agree with its
parts. -/
theorem evalAll_agrees {R : Truth → Truth → Prop} (agreement : Agreement R) {scope : Scope}
    {items : List Term} {truths : List Truth} (agree : PartsAgree R scope items truths) :
    ∀ {undecided : Bool} {before : Truth} {v : Value},
      R (openTruth undecided true) before → evalAll scope undecided items = .ok v →
        R v.truth (before.and (Truth.all truths)) := by
  induction agree with
  | nil =>
      intro undecided before v beforeAgrees evaluated
      simp only [evalAll, Except.ok.injEq] at evaluated
      rw [Truth.all_nil, Truth.and_true, ← evaluated]
      cases undecided <;> exact beforeAgrees
  | @cons item truth items truths head tail ih =>
      intro undecided before v beforeAgrees evaluated
      simp only [evalAll] at evaluated
      cases itemEq : item.eval scope with
      | error fault => simp [itemEq, bind, Except.bind] at evaluated
      | ok value =>
          simp only [itemEq, bind, Except.bind] at evaluated
          have here := head value itemEq
          rw [Truth.all_cons, ← Truth.and_assoc]
          split at evaluated
          · rename_i isNull
            rw [Value.truth_of_isNull isNull] at here
            refine ih ?_ evaluated
            have both := agreement.and beforeAgrees here
            cases undecided <;> exact both
          · rename_i notNull
            rw [Value.truth_of_not_isNull (by simpa using notNull)] at here
            split at evaluated
            · rename_i truthy
              rw [truthy] at here
              refine ih ?_ evaluated
              have both := agreement.and beforeAgrees here
              rwa [Truth.and_true] at both
            · rename_i falsy
              simp only [Bool.not_eq_true] at falsy
              rw [falsy] at here
              obtain rfl := Except.ok.inj evaluated
              rw [Truth.and_comm before, Truth.and_assoc]
              exact agreement.false_and _ here

/-- A disjunction evaluates to the disjunction of truth values that agree with its
parts. -/
theorem evalAny_agrees {R : Truth → Truth → Prop} (agreement : Agreement R) {scope : Scope}
    {items : List Term} {truths : List Truth} (agree : PartsAgree R scope items truths) :
    ∀ {undecided : Bool} {before : Truth} {v : Value},
      R (openTruth undecided false) before → evalAny scope undecided items = .ok v →
        R v.truth (before.or (Truth.any truths)) := by
  induction agree with
  | nil =>
      intro undecided before v beforeAgrees evaluated
      simp only [evalAny, Except.ok.injEq] at evaluated
      rw [Truth.any_nil, Truth.or_false, ← evaluated]
      cases undecided <;> exact beforeAgrees
  | @cons item truth items truths head tail ih =>
      intro undecided before v beforeAgrees evaluated
      simp only [evalAny] at evaluated
      cases itemEq : item.eval scope with
      | error fault => simp [itemEq, bind, Except.bind] at evaluated
      | ok value =>
          simp only [itemEq, bind, Except.bind] at evaluated
          have here := head value itemEq
          rw [Truth.any_cons, ← Truth.or_assoc]
          split at evaluated
          · rename_i isNull
            rw [Value.truth_of_isNull isNull] at here
            refine ih ?_ evaluated
            have both := agreement.or beforeAgrees here
            cases undecided <;> exact both
          · rename_i notNull
            rw [Value.truth_of_not_isNull (by simpa using notNull)] at here
            split at evaluated
            · rename_i truthy
              rw [truthy] at here
              obtain rfl := Except.ok.inj evaluated
              rw [Truth.or_comm before, Truth.or_assoc]
              exact agreement.true_or _ here
            · rename_i falsy
              simp only [Bool.not_eq_true] at falsy
              rw [falsy] at here
              refine ih ?_ evaluated
              have both := agreement.or beforeAgrees here
              rwa [Truth.or_false] at both

end Term

end RowQuery
