import RowQuery.Proofs.Filling.Value
import RowQuery.Proofs.Kind.Projection

/-!
# Results of functions with values in the place of NULLs

No standard function gives NULL.  Their operands are single values, apart from the length of a
list, which does not depend on its items.  So a call whose operands are known has the same result
when NULLs within them are filled in.
-/

namespace RowQuery

open Value

namespace Function

/-- A function that computes values without NULL, and these from plain ones only. -/
def Simple (f : Function) : Prop :=
  ∀ name vs v, f.apply name vs = .ok v → v.Filled ∧ ∀ w ∈ vs, w.Plain

/-- The functions that there are by the way in which they are computed. -/
inductive Usual : Function → Prop
  | simple {f : Function} (simple : f.Simple) : Usual f
  | length : Usual length
  | clock (sql : Dialect → String) (kind : Kind) {reading : Value} (filled : reading.Filled) :
      Usual (ofClockAt sql kind reading)

/-- A function is settled if its result is not NULL and does not depend on NULLs within its
operands. -/
structure Settled (f : Function) : Prop where
  filled : ∀ name vs v, f.apply name vs = .ok v → v.Filled
  same : ∀ name vs vs' v v', List.Forall₂ FillsTo vs vs' → (∀ w ∈ vs, w ≠ .null) →
    f.apply name vs = .ok v → f.apply name vs' = .ok v' → v' = v

/-! ## Functions of plain values -/

theorem simple_ofAffix (affix : Affix) (ignoreCase : Bool) : (ofAffix affix ignoreCase).Simple := by
  intro name vs v ended
  obtain ⟨s, piece, b, rfl, rfl⟩ := computes_ofAffix ended
  exact ⟨filled_bool b, by simp [plain_text]⟩

theorem simple_ofCase (name : String) (sql : Dialect → String → String)
    (convert : String → String) : (ofCase name sql convert).Simple := by
  intro called vs v ended
  obtain ⟨s, rfl, rfl⟩ := computes_ofCase ended
  exact ⟨.single nofun nofun nofun, by simp [plain_text]⟩

theorem simple_equalIgnoringCase : equalIgnoringCase.Simple := by
  intro name vs v ended
  obtain ⟨s, t, b, rfl, rfl⟩ := computes_equalIgnoringCase ended
  exact ⟨filled_bool b, by simp [plain_text]⟩

theorem simple_ofField (part : DatePart) : (ofField part).Simple := by
  intro name vs v ended
  obtain ⟨whole, field, rfl, found⟩ := computes_ofField ended
  exact ⟨filled_field found, by simpa using (kind_of_field found).2⟩

theorem simple_absolute : absolute.Simple := by
  intro name vs v ended
  obtain ⟨operand, rfl, plain, noJson, same⟩ := computes_absolute ended
  refine ⟨.single ?_ ?_ ?_, by simpa using plain⟩ <;> rw [same]
  · exact plain.notNull
  · exact noJson
  · exact plain.notList

/-- A function that is never computed computes nothing else. -/
theorem simple_of_uncomputed {f : Function} (uncomputed : ∀ name vs v, f.apply name vs ≠ .ok v) :
    f.Simple :=
  fun name vs v ended => absurd ended (uncomputed name vs v)

theorem simple_of_aggregate {f : Function} (aggregate : f.aggregate = true) : f.Simple := by
  refine simple_of_uncomputed fun name vs v ended => ?_
  rw [(apply_eq_ok ended).1] at aggregate
  cases aggregate

theorem simple_ofClock (sql : Dialect → String) (kind : Kind) : (ofClock sql kind).Simple :=
  simple_of_uncomputed fun _ _ _ => nofun

/-! ## Filling in -/

theorem Simple.settled {f : Function} (simple : f.Simple) : f.Settled where
  filled name vs v ended := (simple name vs v ended).1
  same name vs vs' v v' each _ ended ended' := by
    obtain rfl := FillsTo.eq_of_forall_plain each (simple name vs v ended).2
    exact Except.ok.inj (ended'.symm.trans ended)

/-- The length of a list is that of the list with its NULLs filled in. -/
theorem settled_length : length.Settled := by
  constructor
  · intro name vs v ended
    obtain ⟨operand, n, -, -, rfl⟩ := computes_length ended
    exact filled_int n
  · intro name vs vs' v v' each known ended ended'
    obtain ⟨operand, n, rfl, -, -⟩ := computes_length ended
    obtain ⟨operand', _, fills, empty, rfl⟩ := List.forall₂_cons_left_iff.1 each
    obtain rfl := List.forall₂_nil_left_iff.1 empty
    cases fills with
    | null => exact absurd rfl (known _ (by simp))
    | same => exact Except.ok.inj (ended'.symm.trans ended)
    | list items =>
        refine Except.ok.inj (ended'.symm.trans (Eq.trans ?_ ended))
        change Except.ok (Value.int (Int64.ofNat _)) = Except.ok (Value.int (Int64.ofNat _))
        rw [items.length_eq]

theorem Usual.settled {f : Function} (usual : f.Usual) : f.Settled := by
  cases usual with
  | simple simple => exact simple.settled
  | length => exact settled_length
  | clock sql kind filled =>
      refine ⟨fun _ _ v ended => ?_, fun _ _ _ _ _ _ _ ended ended' => ?_⟩
      · rw [← Except.ok.inj ended]
        exact filled
      · exact Except.ok.inj (ended'.symm.trans ended)

end Function

namespace FunctionLibrary

open RowQuery.Function

theorem usual_standardMethods : ∀ pair ∈ standardMethods, pair.2.Usual :=
  forall_ofList (by simp [Usual.simple, simple_ofAffix, simple_ofCase])

theorem usual_standardFunctions : ∀ pair ∈ standardFunctions, pair.2.Usual :=
  forall_ofList (by
    simp [Usual.simple, Usual.length, simple_ofAffix, simple_equalIgnoringCase, simple_ofClock,
      simple_of_aggregate, simple_ofField, simple_absolute, count, extremum, sum, mean,
      ofAggregate])

/-- Whatever is called in a standard library is one of the usual functions. -/
structure Usual (l : FunctionLibrary) : Prop where
  functions : ∀ name f, l.function? name = some f → f.Usual
  methods : ∀ name f, l.method? name = some f → f.Usual

theorem IsStandard.usual {l : FunctionLibrary} (isStandard : l.IsStandard) : l.Usual := by
  have builtins : ∀ pair ∈ l.builtins, pair.2.Usual := by
    rcases isStandard with rfl | ⟨now, today, rfl⟩
    · exact usual_standardFunctions
    · intro pair member
      rcases Keyed.mem_extend member with standard | clock
      · exact usual_standardFunctions pair standard
      · simp only [List.mem_cons, List.not_mem_nil, or_false] at clock
        rcases clock with rfl | rfl
        · exact .clock _ _ (.single nofun nofun nofun)
        · exact .clock _ _ (.single nofun nofun nofun)
  constructor
  · refine forall_function? builtins ?_
    rcases isStandard with rfl | ⟨now, today, rfl⟩ <;> nofun
  · intro name f found
    refine usual_standardMethods (name, f) ?_
    rcases isStandard with rfl | ⟨now, today, rfl⟩ <;> exact Keyed.mem_of_get? found

end FunctionLibrary

end RowQuery
