import Mathlib.Data.List.Forall2

/-!
# Computations that succeed

A computation that ends without a fault is a chain of steps that all end without
one, and so is one over a list.  The same holds where the steps pass on a state.
-/

theorem List.Forall₂.exists_of_mem {α β : Type} {R : α → β → Prop} {as : List α} {bs : List β}
    (related : List.Forall₂ R as bs) {a : α} (member : a ∈ as) : ∃ b ∈ bs, R a b := by
  induction related with
  | nil => cases member
  | @cons _ b _ bs head _ ih =>
      rcases List.mem_cons.1 member with rfl | member
      · exact ⟨b, by simp, head⟩
      · obtain ⟨b', found, both⟩ := ih member
        exact ⟨b', by simp [found], both⟩

theorem List.Forall₂.imp_of_mem {α β : Type} {R S : α → β → Prop} {as : List α} {bs : List β}
    (related : List.Forall₂ R as bs) (weaker : ∀ a ∈ as, ∀ b, R a b → S a b) :
    List.Forall₂ S as bs := by
  induction related with
  | nil => exact .nil
  | cons head _ ih =>
      exact .cons (weaker _ (by simp) _ head) (ih fun a member => weaker a (by simp [member]))

/-- What is made of the pairs of two lists has to do with the second one. -/
theorem List.Forall₂.map_zip {α β γ : Type} {R : α → β → Prop} {S : γ → β → Prop} {as : List α}
    {bs : List β} (related : List.Forall₂ R as bs) {both : α × β → γ}
    (each : ∀ a b, R a b → S (both (a, b)) b) : List.Forall₂ S ((as.zip bs).map both) bs := by
  induction related with
  | nil => exact .nil
  | cons head _ ih => exact .cons (each _ _ head) ih

theorem List.Forall₂.exists_getElem? {α β : Type} {R : α → β → Prop} {as : List α} {bs : List β}
    (related : List.Forall₂ R as bs) {n : Nat} {a : α} (found : as[n]? = some a) :
    ∃ b, bs[n]? = some b ∧ R a b := by
  induction related generalizing n with
  | nil => cases found
  | @cons _ b _ bs head _ ih =>
      cases n with
      | zero =>
          obtain rfl := Option.some.inj found
          exact ⟨b, rfl, head⟩
      | succ n => exact ih found

theorem List.Forall₂.exists_of_append {α β : Type} {R : α → β → Prop} {as as' : List α} {bs : List β}
    (related : List.Forall₂ R (as ++ as') bs) :
    ∃ front back, List.Forall₂ R as front ∧ List.Forall₂ R as' back ∧ bs = front ++ back := by
  induction as generalizing bs with
  | nil => exact ⟨[], bs, .nil, related, rfl⟩
  | cons a as ih =>
      obtain ⟨b, bs, head, tail, rfl⟩ := List.forall₂_cons_left_iff.1 related
      obtain ⟨front, back, first, second, rfl⟩ := ih tail
      exact ⟨b :: front, back, .cons head first, second, rfl⟩

/-- What two lists have to do with a third one they have to do with each other. -/
theorem List.Forall₂.of_common {α β γ : Type} {R : α → β → Prop} {S : α → γ → Prop}
    {T : β → γ → Prop} {as : List α} {bs : List β} {cs : List γ} (left : List.Forall₂ R as bs)
    (right : List.Forall₂ S as cs) (each : ∀ a ∈ as, ∀ b c, R a b → S a c → T b c) :
    List.Forall₂ T bs cs := by
  induction left generalizing cs with
  | nil =>
      obtain rfl := List.forall₂_nil_left_iff.1 right
      exact .nil
  | @cons a b _ _ head _ ih =>
      obtain ⟨c, cs, head', tail', rfl⟩ := List.forall₂_cons_left_iff.1 right
      exact .cons (each a (by simp) b c head head')
        (ih tail' fun a member => each a (by simp [member]))

theorem List.mapM_eq_some_iff {α β : Type} {f : α → Option β} {items : List α}
    {results : List β} :
    items.mapM f = some results ↔ List.Forall₂ (fun a b => f a = some b) items results := by
  induction items generalizing results with
  | nil =>
      rw [List.mapM_nil, List.forall₂_nil_left_iff]
      exact ⟨fun ended => (Option.some.inj ended).symm, fun empty => empty ▸ rfl⟩
  | cons item items ih =>
      rw [List.mapM_cons, Option.bind_eq_bind, Option.bind_eq_some_iff,
        List.forall₂_cons_left_iff]
      constructor
      · rintro ⟨b, head, tail⟩
        obtain ⟨bs, tail, whole⟩ := Option.bind_eq_some_iff.1 tail
        exact ⟨b, bs, head, ih.1 tail, (Option.some.inj whole).symm⟩
      · rintro ⟨b, bs, head, tail, rfl⟩
        exact ⟨b, head, Option.bind_eq_some_iff.2 ⟨bs, ih.2 tail, rfl⟩⟩

theorem List.exists_of_mapM_eq_none {α β : Type} {f : α → Option β} {items : List α}
    (failed : items.mapM f = none) : ∃ a ∈ items, f a = none := by
  induction items with
  | nil => cases failed
  | cons item items ih =>
      cases head : f item with
      | none => exact ⟨item, by simp, head⟩
      | some b =>
          rw [List.mapM_cons, head] at failed
          cases tail : items.mapM f with
          | none =>
              obtain ⟨a, member, none⟩ := ih tail
              exact ⟨a, by simp [member], none⟩
          | some bs =>
              rw [tail] at failed
              cases failed

namespace Except

variable {ε α β : Type}

theorem bind_eq_ok_iff {step : Except ε α} {rest : α → Except ε β} {b : β} :
    step >>= rest = .ok b ↔ ∃ a, step = .ok a ∧ rest a = .ok b := by
  cases step with
  | error fault =>
      constructor
      · intro ended
        cases ended
      · rintro ⟨a, impossible, -⟩
        cases impossible
  | ok a =>
      constructor
      · exact fun ended => ⟨a, rfl, ended⟩
      · rintro ⟨a', same, ended⟩
        obtain rfl := Except.ok.inj same
        exact ended

theorem map_eq_ok_iff {step : Except ε α} {f : α → β} {b : β} :
    step.map f = .ok b ↔ ∃ a, step = .ok a ∧ f a = b := by
  cases step <;> simp [Except.map]

theorem toOption_eq_some_iff {step : Except ε α} {a : α} :
    step.toOption = some a ↔ step = .ok a := by
  cases step <;> simp [Except.toOption]

theorem mapM_eq_ok_iff {f : α → Except ε β} {items : List α} {results : List β} :
    items.mapM f = .ok results ↔ List.Forall₂ (fun a b => f a = .ok b) items results := by
  induction items generalizing results with
  | nil =>
      rw [List.mapM_nil, List.forall₂_nil_left_iff]
      exact ⟨fun ended => (Except.ok.inj ended).symm, fun empty => empty ▸ rfl⟩
  | cons item items ih =>
      rw [List.mapM_cons, bind_eq_ok_iff, List.forall₂_cons_left_iff]
      constructor
      · rintro ⟨b, head, tail⟩
        obtain ⟨bs, tail, whole⟩ := bind_eq_ok_iff.1 tail
        exact ⟨b, bs, head, ih.1 tail, (Except.ok.inj whole).symm⟩
      · rintro ⟨b, bs, head, tail, rfl⟩
        exact ⟨b, head, bind_eq_ok_iff.2 ⟨bs, ih.2 tail, rfl⟩⟩

end Except

namespace ExceptT

variable {ε σ α β : Type} {step : ExceptT ε (StateM σ) α} {rest : α → ExceptT ε (StateM σ) β}
variable {before between after : σ} {a : α} {b : β}

theorem run_bind_eq :
    (step >>= rest).run before =
      match step.run before with
      | (.ok a, between) => (rest a).run between
      | (.error fault, between) => (.error fault, between) := by
  change (match step.run before with
    | (outcome, between) => (ExceptT.bindCont rest outcome : StateM σ _) between) = _
  cases step.run before with
  | mk outcome between => cases outcome <;> rfl

/-- A computation without a state leaves the state alone. -/
theorem run_liftExcept (outcome : Except ε α) :
    (liftM outcome : ExceptT ε (StateM σ) α).run before = (outcome, before) :=
  rfl

theorem run_bind_of_ok (first : step.run before = (.ok a, between)) :
    (step >>= rest).run before = (rest a).run between := by
  rw [run_bind_eq, first]

theorem run_bind_eq_ok_iff :
    (step >>= rest).run before = (.ok b, after) ↔
      ∃ a between, step.run before = (.ok a, between) ∧ (rest a).run between = (.ok b, after) := by
  constructor
  · intro ended
    cases first : step.run before with
    | mk outcome between =>
        rw [run_bind_eq, first] at ended
        cases outcome with
        | error fault => cases ended
        | ok a => exact ⟨a, between, rfl, ended⟩
  · rintro ⟨a, between, first, second⟩
    rw [run_bind_of_ok first]
    exact second

end ExceptT
