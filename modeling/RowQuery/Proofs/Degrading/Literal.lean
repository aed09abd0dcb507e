import Mathlib.Algebra.Group.Nat.Defs
import RowQuery.Dialect.Builtin
import RowQuery.Proofs.Number.Reading
import RowQuery.Proofs.Piece

/-!
# Literals that can be written

The built-in dialects have a type and a literal for every value but for infinite doubles and those
that are no number.  So writing a constant fails for these only.
-/

namespace RowQuery

open RowQuery.Number

/-- The fault of a double that has no literal. -/
def Fault.IsUnwritable (cause : Fault) : Prop :=
  ∃ x : Float, (x.isNaN || x.isInf) = true ∧
    cause = .value ((Value.float x).repr ++ " has no portable SQL literal")

namespace Walk

variable {α β : Type}

/-- The step fails for want of an SQL form or of a literal for a double, and for nothing else. -/
def Degrades (step : Walk α) : Prop :=
  ∀ cause, step = .error (.fault cause) → cause.IsUnwritable

theorem degrades_ok (a : α) : Degrades (.ok a : Walk α) :=
  nofun

theorem degrades_noForm : Degrades (.error .noForm : Walk α) := by
  rintro cause ⟨⟩

theorem degrades_ofOption (option : Option α) : (ofOption option).Degrades := by
  cases option with
  | none => exact degrades_noForm
  | some a => exact degrades_ok a

theorem degrades_ofOutcome {outcome : Outcome α} {a : α} (ended : outcome = .ok a) :
    (ofOutcome outcome).Degrades := by
  rw [ended]
  exact degrades_ok a

theorem Degrades.bind {step : Walk α} {rest : α → Walk β} (first : step.Degrades)
    (second : ∀ a, step = .ok a → (rest a).Degrades) : (step >>= rest).Degrades := by
  cases step with
  | error obstacle =>
      intro cause failed
      cases obstacle with
      | noForm => cases failed
      | fault cause' =>
          cases failed
          exact first cause rfl
  | ok a => exact second a rfl

theorem degrades_mapM {step : α → Walk β} {items : List α} (each : ∀ a ∈ items, (step a).Degrades) :
    (items.mapM step).Degrades := by
  induction items with
  | nil => exact degrades_ok []
  | cons item items ih =>
      rw [List.forall_mem_cons] at each
      rw [List.mapM_cons]
      exact each.1.bind fun _ _ => (ih each.2).bind fun _ _ => degrades_ok _

end Walk

theorem Piece.degrades_exactly (p : Piece) : p.exactly.Degrades := by
  unfold Piece.exactly
  split
  · exact Walk.degrades_ok p
  · exact Walk.degrades_noForm

/-! ## The digits of decimals -/

namespace Number

/-- The digits before the point are those beyond the places. -/
theorem Decimal.digitCount_trunc_le (d : Decimal) :
    digitCount d.trunc.coefficient ≤ digitCount d.coefficient - d.places := by
  rw [digitCount_le_iff]
  change d.coefficient / 10 ^ d.places < _
  have bounded : d.coefficient < 10 ^ digitCount d.coefficient := digitCount_le_iff.1 (Nat.le_refl _)
  rcases Nat.le_total d.places (digitCount d.coefficient) with few | many
  · rw [Nat.div_lt_iff_lt_mul (Nat.pow_pos (by decide)), ← Nat.pow_add, Nat.sub_add_cancel few]
    exact bounded
  · have small := Nat.lt_of_lt_of_le bounded (Nat.pow_le_pow_right (by decide) many)
    rw [Nat.div_eq_of_lt small]
    exact Nat.pow_pos (by decide)

theorem Decimal.digitCount_le (d : Decimal) : digitCount d.coefficient ≤ 29 :=
  digitCount_le_iff.2 (Nat.lt_of_lt_of_le d.coefficient_lt (by decide))

end Number

namespace BuiltinDialect

variable (b : BuiltinDialect)

/-! ## The types of the built-in dialects -/

theorem exists_resolve {kind : Kind} (notNull : kind ≠ .null) (notList : kind ≠ .list) :
    ∃ type, b.dialect.types.resolve kind {} = .ok type := by
  cases b <;> cases kind <;>
    first | exact absurd rfl notNull | exact absurd rfl notList | exact ⟨_, rfl⟩

/-- There is a type for all integers. -/
theorem exists_resolve_int :
    ∃ type, b.dialect.types.resolve .int { bytes := some 8 } = .ok type ∧
      type.range = some (.signed 8) := by
  cases b <;> exact ⟨_, rfl, rfl⟩

/-- There is one type for decimals, with enough digits and places for all of them. -/
theorem numeric_family :
    ∃ type p, b.dialect.types.family .numeric = [type] ∧ type.precision = some p ∧
      p.frozen = false ∧ 29 ≤ p.maxDigits ∧ 28 ≤ p.maxPlaces := by
  cases b <;> exact ⟨_, _, rfl, rfl, rfl, by decide, by decide⟩

theorem exists_resolve_decimal (d : Decimal) :
    ∃ type, literalType b.dialect.types (.decimal d) = .ok type ∧
      Codec.fitsDigits d type = true := by
  obtain ⟨type, p, only, precision, adjustable, digits, places⟩ := b.numeric_family
  have coefficient := d.digitCount_le
  have fraction := d.places_le
  generalize wanted : max (max (digitCount d.coefficient) d.places) 1 = width
  have enough : width ≤ type.maxDigits := by
    simp only [ColumnType.maxDigits, precision]
    omega
  refine ⟨type.setPrecision width d.places, ?_, ?_⟩
  · change b.dialect.types.numeric (max (max (digitCount d.coefficient) d.places) 1) d.places = _
    unfold TypeCatalog.numeric
    rw [wanted, only, List.find?_cons_of_pos (by simpa using enough)]
  · have shown := d.digitCount_trunc_le
    simp only [ColumnType.maxDigits, precision] at enough
    simp only [Codec.fitsDigits, ColumnType.setPrecision, precision, adjustable, Bool.false_or,
      decide_eq_true_eq, if_false, Bool.false_eq_true]
    omega

/-- Where there are intervals they have literals. -/
theorem exists_resolve_interval :
    ∃ type, b.dialect.types.resolve .interval {} = .ok type ∧
      (type.family = .interval → ∀ i, ∃ text, b.dialect.intervalLiteral i = some text) := by
  cases b with
  | postgres => exact ⟨_, rfl, fun _ i => ⟨_, rfl⟩⟩
  | _ => exact ⟨_, rfl, nofun⟩

theorem contains_signed (i : Int64) : (IntRange.signed 8).contains i.toInt = true := by
  have low := i.le_toInt
  have high := i.toInt_lt
  have bounds : IntRange.signed 8 = ⟨-9223372036854775808, 9223372036854775807⟩ := by decide
  rw [bounds, IntRange.contains, Bool.and_eq_true, decide_eq_true_eq, decide_eq_true_eq]
  exact ⟨low, by dsimp only; omega⟩

/-! ## Literals -/

variable {b} {c : CompileContext}

/-- The built-in dialects have a type for truth values. -/
theorem exists_truth (builtin : c.dialect = b.dialect) (value : Bool) :
    ∃ p, c.truth value = .ok p := by
  obtain ⟨type, resolved⟩ := b.exists_resolve (nofun : Kind.bool ≠ .null) nofun
  rw [← builtin] at resolved
  have typed : resultType? c.dialect.types .bool = some type := congrArg Except.toOption resolved
  unfold CompileContext.truth CompileContext.truthType
  rw [typed]
  exact ⟨_, rfl⟩

theorem degrades_truth (c : CompileContext) (value : Bool) : (c.truth value).Degrades :=
  (Walk.degrades_ofOption _).bind fun _ _ => Walk.degrades_ok _

/-- The literal of a value that has a type, up to its text. -/
theorem degrades_typed {v : Value} {type : ColumnType} (notBool : v.kind ≠ .bool)
    (typed : literalType c.dialect.types v = .ok type)
    (encoded : (Walk.ofOutcome (c.literalText type v)).Degrades) : (c.literal v).Degrades := by
  have unfolded : c.literal v = (do
      let type ← Walk.ofOutcome (literalType c.dialect.types v)
      let sql ← Walk.ofOutcome (c.literalText type v)
      .ok { fragment := .literal sql v type }) := by
    cases v <;> first | rfl | exact absurd rfl notBool
  rw [unfolded, typed]
  exact encoded.bind fun _ _ => Walk.degrades_ok _

theorem degrades_float {x : Float} (type : ColumnType) :
    (Walk.ofOutcome (c.literalText type (.float x))).Degrades := by
  change (Walk.ofOutcome (if x.isNaN || x.isInf then _ else _)).Degrades
  split
  · rename_i unwritable
    rintro cause ⟨⟩
    exact ⟨x, unwritable, rfl⟩
  · exact Walk.degrades_ok _

/-- Every constant has a literal, unless it is an infinite double or not a number. -/
theorem degrades_literal (builtin : c.dialect = b.dialect) (v : Value) :
    (c.literal v).Degrades := by
  have plain (notNull : v.kind ≠ .null) (notList : v.kind ≠ .list) :
      ∃ type, c.dialect.types.resolve v.kind {} = .ok type :=
    builtin ▸ b.exists_resolve notNull notList
  cases v with
  | bool value => exact degrades_truth c value
  | null => exact degrades_typed nofun rfl (Walk.degrades_ok _)
  | list items => exact degrades_typed nofun rfl (Walk.degrades_ok _)
  | int i =>
      obtain ⟨type, resolved, range⟩ := b.exists_resolve_int
      refine degrades_typed nofun (builtin ▸ resolved) ?_
      have encoded : c.literalText type (.int i) = .ok (intText i.toInt) := by
        change Codec.encodeInt i type = _
        rw [Codec.encodeInt, range]
        exact if_pos (contains_signed i)
      exact Walk.degrades_ofOutcome encoded
  | decimal d =>
      obtain ⟨type, resolved, fits⟩ := b.exists_resolve_decimal d
      exact degrades_typed nofun (builtin ▸ resolved) (Walk.degrades_ofOutcome (if_pos fits))
  | float x =>
      obtain ⟨type, resolved⟩ := plain nofun nofun
      exact degrades_typed nofun resolved (degrades_float type)
  | interval i =>
      obtain ⟨type, resolved, written⟩ := b.exists_resolve_interval
      refine degrades_typed nofun (builtin ▸ resolved) ?_
      change (Walk.ofOutcome ((if type.family = .interval then .interval else .intervalSeconds :
        Codec).encode c.dialect type (.interval i))).Degrades
      split
      · rename_i native
        obtain ⟨text, known⟩ := written native i
        rw [builtin, Codec.encode, known]
        exact Walk.degrades_ok text
      · exact Walk.degrades_ok _
  | text | bytes | date | time | datetime | json =>
      obtain ⟨type, resolved⟩ := plain nofun nofun
      exact degrades_typed nofun resolved (Walk.degrades_ok _)

end BuiltinDialect

end RowQuery
