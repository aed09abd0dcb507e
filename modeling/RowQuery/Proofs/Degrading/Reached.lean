import RowQuery.Proofs.Filling.Term
import RowQuery.Proofs.Ingredients

/-!
# Terms that an evaluation reaches

The compiler goes through all parts of a term.  The evaluation of the term does not: it leaves
operands out behind an unknown one, and the parts of conjunctions and disjunctions behind one that
decides.  What it reaches has a value.
-/

open Relation (ReflTransGen)

namespace RowQuery

open Value

namespace Term

section

variable (scope : Scope)

/-- The operands up to the first unknown one. -/
def upToUnknown : List Term → List Term
  | [] => []
  | item :: items =>
      item :: match item.eval scope with
        | .ok v => if isUnknown item v then [] else upToUnknown items
        | .error _ => []

/-- The parts up to the first one that has the truth value which decides. -/
def upToDecided (decisive : Bool) : List Term → List Term
  | [] => []
  | item :: items =>
      item :: match item.eval scope with
        | .ok v => if !v.isNull && v.truthy == decisive then [] else upToDecided decisive items
        | .error _ => []

/-- The ingredients that are evaluated with the term. -/
def visited : Term → List Term
  | subscript l r | arithmetic l _ r => upToUnknown scope [l, r]
  | call _ items => upToUnknown scope items
  | method target _ items => upToUnknown scope (target :: items)
  | all items => upToDecided scope false items
  | any items => upToDecided scope true items
  | t => t.ingredients

/-- The second term is evaluated in the course of the first one. -/
def Reaches : Term → Term → Prop :=
  ReflTransGen fun t s => s ∈ t.visited scope

end

variable {scope : Scope}

theorem eval_of_upToUnknown {items : List Term} {known : Option (List Value)}
    (ended : evalKnown scope items = .ok known) {s : Term} (among : s ∈ upToUnknown scope items) :
    ∃ w, s.eval scope = .ok w := by
  induction items generalizing known with
  | nil => cases among
  | cons item items ih =>
      rw [evalKnown] at ended
      obtain ⟨v, first, ended⟩ := Except.bind_eq_ok_iff.1 ended
      rw [upToUnknown, first] at among
      rcases List.mem_cons.1 among with rfl | later
      · exact ⟨v, first⟩
      · dsimp only at later
        split at ended
        · rename_i unknown
          rw [if_pos unknown] at later
          cases later
        · rename_i isKnown
          rw [if_neg isKnown] at later
          obtain ⟨others, evaluated, -⟩ := Except.bind_eq_ok_iff.1 ended
          exact ih evaluated later

theorem eval_of_upToFalse {items : List Term} {undecided : Bool} {v : Value}
    (ended : evalAll scope undecided items = .ok v) {s : Term}
    (among : s ∈ upToDecided scope false items) : ∃ w, s.eval scope = .ok w := by
  induction items generalizing undecided with
  | nil => cases among
  | cons item items ih =>
      rw [evalAll] at ended
      obtain ⟨a, first, ended⟩ := Except.bind_eq_ok_iff.1 ended
      rw [upToDecided, first] at among
      rcases List.mem_cons.1 among with rfl | later
      · exact ⟨a, first⟩
      · dsimp only at later
        split at ended
        · rename_i null
          rw [null, if_neg (by simp)] at later
          exact ih ended later
        · split at ended
          · rename_i holds
            rw [holds, if_neg (by simp)] at later
            exact ih ended later
          · rename_i known refuted
            rw [Bool.eq_false_iff.2 known, Bool.eq_false_iff.2 refuted, if_pos (by decide)] at later
            cases later

theorem eval_of_upToTrue {items : List Term} {undecided : Bool} {v : Value}
    (ended : evalAny scope undecided items = .ok v) {s : Term}
    (among : s ∈ upToDecided scope true items) : ∃ w, s.eval scope = .ok w := by
  induction items generalizing undecided with
  | nil => cases among
  | cons item items ih =>
      rw [evalAny] at ended
      obtain ⟨a, first, ended⟩ := Except.bind_eq_ok_iff.1 ended
      rw [upToDecided, first] at among
      rcases List.mem_cons.1 among with rfl | later
      · exact ⟨a, first⟩
      · dsimp only at later
        split at ended
        · rename_i null
          rw [null, if_neg (by simp)] at later
          exact ih ended later
        · split at ended
          · rename_i known holds
            rw [Bool.eq_false_iff.2 known, holds, if_pos (by decide)] at later
            cases later
          · rename_i refuted
            rw [Bool.eq_false_iff.2 refuted, if_neg (by simp)] at later
            exact ih ended later

/-- Two operands of which the second one is left out if the first one is unknown. -/
theorem evalKnown_pair {l r : Term} {v : Value} {combine : Value → Value → Outcome Value}
    (ended : (do
      let a ← l.eval scope
      if isUnknown l a then .ok Value.null
      else
        let b ← r.eval scope
        if isUnknown r b then .ok Value.null else combine a b) = .ok v) :
    ∃ known, evalKnown scope [l, r] = .ok known := by
  obtain ⟨a, first, ended⟩ := Except.bind_eq_ok_iff.1 ended
  rw [evalKnown, first]
  split at ended
  · rename_i unknown
    exact ⟨none, if_pos unknown⟩
  · rename_i known
    obtain ⟨b, second, -⟩ := Except.bind_eq_ok_iff.1 ended
    have last : ∃ known, evalKnown scope [r] = .ok known := by
      rw [evalKnown, second]
      by_cases unknown : isUnknown r b = true
      · exact ⟨none, if_pos unknown⟩
      · exact ⟨some [b], if_neg unknown⟩
    obtain ⟨others, evaluated⟩ := last
    refine ⟨others.map (a :: ·), (if_neg known).trans ?_⟩
    rw [evaluated]
    rfl

/-- What is evaluated with a term that has a value has one itself. -/
theorem eval_of_visited {t s : Term} {v : Value} (ended : t.eval scope = .ok v)
    (among : s ∈ t.visited scope) : ∃ w, s.eval scope = .ok w := by
  cases t with
  | param | constant | argument => cases among
  | field target name =>
      have noColumn : ∀ i, target ≠ param i := by
        rintro i rfl
        cases among
      change s ∈ (field target name).ingredients at among
      rw [ingredients_field name noColumn] at among
      obtain rfl := List.mem_singleton.1 among
      rw [eval_field _ noColumn] at ended
      obtain ⟨a, aEq, -⟩ := Except.bind_eq_ok_iff.1 ended
      exact ⟨a, aEq⟩
  | subscript target key =>
      rw [eval] at ended
      obtain ⟨known, evaluated⟩ := evalKnown_pair ended
      exact eval_of_upToUnknown evaluated among
  | tuple items =>
      rw [eval] at ended
      obtain ⟨vs, evaluated, -⟩ := Except.bind_eq_ok_iff.1 ended
      obtain ⟨w, -, wEq⟩ := (evalItems_eq_ok_iff.1 evaluated).exists_of_mem among
      exact ⟨w, wEq⟩
  | call name operands =>
      rw [eval] at ended
      obtain ⟨f, -, ended⟩ := Except.bind_eq_ok_iff.1 ended
      obtain ⟨known, evaluated, -⟩ := Except.bind_eq_ok_iff.1 ended
      exact eval_of_upToUnknown evaluated among
  | method target name operands =>
      rw [eval_method] at ended
      obtain ⟨f, -, ended⟩ := Except.bind_eq_ok_iff.1 ended
      obtain ⟨known, evaluated, -⟩ := Except.bind_eq_ok_iff.1 ended
      exact eval_of_upToUnknown evaluated among
  | compare l op r =>
      rw [eval] at ended
      obtain ⟨a, aEq, ended⟩ := Except.bind_eq_ok_iff.1 ended
      obtain ⟨b, bEq, -⟩ := Except.bind_eq_ok_iff.1 ended
      rcases List.mem_pair.1 among with rfl | rfl
      · exact ⟨a, aEq⟩
      · exact ⟨b, bEq⟩
  | member item collection negated =>
      rw [eval] at ended
      obtain ⟨a, aEq, ended⟩ := Except.bind_eq_ok_iff.1 ended
      obtain ⟨w, wEq, -⟩ := Except.bind_eq_ok_iff.1 ended
      by_cases listed : ∃ members, collection = tuple members
      · obtain ⟨members, rfl⟩ := listed
        rcases List.mem_cons.1 among with rfl | among
        · exact ⟨a, aEq⟩
        · rw [eval] at wEq
          obtain ⟨vs, evaluated, -⟩ := Except.bind_eq_ok_iff.1 wEq
          obtain ⟨u, -, uEq⟩ := (evalItems_eq_ok_iff.1 evaluated).exists_of_mem among
          exact ⟨u, uEq⟩
      · change s ∈ (member item collection negated).ingredients at among
        rw [ingredients_member negated fun members same => listed ⟨members, same⟩] at among
        rcases List.mem_pair.1 among with rfl | rfl
        · exact ⟨a, aEq⟩
        · exact ⟨w, wEq⟩
  | arithmetic l op r =>
      rw [eval] at ended
      obtain ⟨known, evaluated⟩ := evalKnown_pair ended
      exact eval_of_upToUnknown evaluated among
  | all items =>
      rw [eval] at ended
      exact eval_of_upToFalse ended among
  | any items =>
      rw [eval] at ended
      exact eval_of_upToTrue ended among
  | not inner | negate inner =>
      obtain rfl := List.mem_singleton.1 among
      rw [eval] at ended
      obtain ⟨a, aEq, -⟩ := Except.bind_eq_ok_iff.1 ended
      exact ⟨a, aEq⟩
  | named inner name =>
      obtain rfl := List.mem_singleton.1 among
      rw [eval] at ended
      exact ⟨v, ended⟩

/-- What the evaluation of a term reaches has a value if the term has one. -/
theorem eval_of_reaches {t s : Term} (reaches : t.Reaches scope s) {v : Value}
    (ended : t.eval scope = .ok v) : ∃ w, s.eval scope = .ok w := by
  induction reaches with
  | refl => exact ⟨v, ended⟩
  | tail _ among ih =>
      obtain ⟨w, wEq⟩ := ih
      exact eval_of_visited wEq among

end Term

end RowQuery
