import Mathlib.Data.Rat.Floor
import RowQuery.Proofs.Degrading.Literal
import RowQuery.Proofs.Number.Division
import RowQuery.Proofs.Types.DecimalRequest

/-!
# Room for decimals

A numeric column with `digits` digits, of which `places` stand behind the point, has room for what
lies below `10 ^ (digits - places)` after it has been rounded to the places.  The digits in front
of the point are counted before that.  So a decimal is let through that has no room because it is
rounded up; one that needs no rounding always has it, unless there are more places than digits.

A decimal constant gets a column type with its own digits and places.  It has at most 29 digits and
28 places, and every built-in dialect has a type with as many, so no ceiling takes any of them away.
The digits before the point are those beyond the places, for which there is room even if there are
fewer digits than places.  So the literal is the text of the decimal.
-/

namespace RowQuery

open RowQuery.Number

/-! ## Rounding -/

/-- A number rounded to so many places, a half away from zero. -/
def roundAway (x : ℚ) (places : ℕ) : ℚ :=
  let magnitude : ℚ := ⌊|x| * 10 ^ places + 1 / 2⌋ / 10 ^ places
  if x < 0 then -magnitude else magnitude

theorem abs_roundAway (x : ℚ) (places : ℕ) :
    |roundAway x places| = ⌊|x| * 10 ^ places + 1 / 2⌋ / 10 ^ places := by
  have nonneg : (0 : ℚ) ≤ ⌊|x| * 10 ^ places + 1 / 2⌋ / 10 ^ places := by
    have : 0 ≤ ⌊|x| * 10 ^ places + 1 / 2⌋ := Int.floor_nonneg.2 (by positivity)
    positivity
  rw [roundAway]
  split
  · rw [abs_neg, abs_of_nonneg nonneg]
  · exact abs_of_nonneg nonneg

/-- What is rounded stays below the first number without room if it is farther than half a unit
of the last place away from it. -/
theorem abs_roundAway_lt_iff (x : ℚ) (digits places : ℕ) :
    |roundAway x places| < 10 ^ (digits - places : ℤ) ↔
      |x| + 1 / 2 / 10 ^ places < 10 ^ (digits - places : ℤ) := by
  have positive : (0 : ℚ) < 10 ^ places := by positivity
  have ceiling : (10 : ℚ) ^ (digits - places : ℤ) = ((10 ^ digits : ℤ) : ℚ) / 10 ^ places := by
    rw [zpow_sub₀ (by norm_num), zpow_natCast, zpow_natCast]
    push_cast
    rfl
  have whole : |x| + 1 / 2 / 10 ^ places = (|x| * 10 ^ places + 1 / 2) / 10 ^ places := by
    field_simp
  rw [abs_roundAway, ceiling, whole, div_lt_div_iff_of_pos_right positive,
    div_lt_div_iff_of_pos_right positive, Int.cast_lt, Int.floor_lt]

namespace Number.Decimal

/-- A decimal that has no more places is not changed. -/
theorem roundAway_toRat {d : Decimal} {places : ℕ} (few : d.places ≤ places) :
    roundAway d.toRat places = d.toRat := by
  have whole : |d.toRat| * 10 ^ places = (d.coefficient * 10 ^ (places - d.places) : ℕ) := by
    rw [abs_toRat, magnitude, ← Nat.sub_add_cancel few, pow_add]
    field_simp
    simp
  have same : (⌊|d.toRat| * 10 ^ places + 1 / 2⌋ : ℚ) / 10 ^ places = |d.toRat| := by
    have unrounded : ⌊|d.toRat| * 10 ^ places + 1 / 2⌋ =
        ((d.coefficient * 10 ^ (places - d.places) : ℕ) : ℤ) := by
      rw [whole, Int.floor_eq_iff]
      constructor <;> push_cast <;> linarith
    rw [unrounded, Int.cast_natCast, ← whole]
    field_simp
  rw [roundAway, same]
  split
  · rename_i negative
    rw [abs_of_neg negative, neg_neg]
  · rename_i positive
    exact abs_of_nonneg (not_lt.1 positive)

/-- The digits before the point are counted. -/
theorem digitCount_trunc_le_iff (d : Decimal) (width : ℕ) :
    digitCount d.trunc.coefficient ≤ width ↔ |d.toRat| < 10 ^ width := by
  have positive : 0 < 10 ^ d.places := Nat.pow_pos (by decide)
  rw [digitCount_le_iff, abs_toRat, magnitude, div_lt_iff₀ (by positivity)]
  change d.coefficient / 10 ^ d.places < 10 ^ width ↔ _
  rw [Nat.div_lt_iff_lt_mul positive]
  exact_mod_cast Iff.rfl

end Number.Decimal

namespace Codec

variable {type : ColumnType} {p : Precision}

theorem fitsDigits_iff (adjustable : type.precision = some p) (free : p.frozen = false)
    (d : Decimal) : fitsDigits d type = true ↔ |d.toRat| < 10 ^ (p.digits - p.places) := by
  rw [← d.digitCount_trunc_le_iff, fitsDigits, adjustable]
  simp [free]

/-- A decimal is accepted if it lies below the first number without room.  It fits if it still does
with half a unit of the last place on top.  Both come to the same for a decimal that is not
rounded, unless the column has more places than digits. -/
theorem decimals_accepted_and_fitting (dialect : Dialect)
    (adjustable : type.precision = some p) (free : p.frozen = false) (d : Decimal) :
    Codec.decimal.encode dialect type (.decimal d) =
        (if |d.toRat| < 10 ^ (p.digits - p.places) then .ok d.toText
          else .error (.value (d.toText ++ " does not fit " ++ type.declared))) ∧
      (|roundAway d.toRat p.places| < 10 ^ (p.digits - p.places : ℤ) ↔
        |d.toRat| + 1 / 2 / 10 ^ p.places < 10 ^ (p.digits - p.places : ℤ)) ∧
      (d.places ≤ p.places → p.places ≤ p.digits →
        (|roundAway d.toRat p.places| < 10 ^ (p.digits - p.places : ℤ) ↔
          |d.toRat| < 10 ^ (p.digits - p.places))) := by
  refine ⟨?_, abs_roundAway_lt_iff _ _ _, fun few room => ?_⟩
  · change encodeDecimal d type = _
    simp only [encodeDecimal, fitsDigits_iff adjustable free]
  · rw [d.roundAway_toRat few, ← Nat.cast_sub room, zpow_natCast]

/-- A column for prices below a thousand, in cents. -/
def price : ColumnType :=
  (ColumnType.adjustablePrecision { name := "NUMERIC", family := .numeric } 38 38).setPrecision 5 2

/-- Half a cent below a thousand. -/
def halfCentBelow : Decimal :=
  ⟨false, 999995, 3, by decide, by decide⟩

theorem half_cent_outgrows_price :
    price.precision = some ⟨38, 38, 5, 2, false⟩ ∧
      Codec.decimal.encode Dialect.ansi price (.decimal halfCentBelow) = .ok "999.995" ∧
      |roundAway halfCentBelow.toRat 2| ≥ 10 ^ (5 - 2 : ℤ) := by
  have adjustable : price.precision = some ⟨38, 38, 5, 2, false⟩ := rfl
  have value : |halfCentBelow.toRat| = 999995 / 1000 := by
    norm_num [Decimal.toRat, Decimal.signed, halfCentBelow]
  have text : halfCentBelow.toText = "999.995" := by decide +kernel
  obtain ⟨accepted, fits, -⟩ :=
    decimals_accepted_and_fitting Dialect.ansi adjustable rfl halfCentBelow
  refine ⟨adjustable, ?_, ?_⟩
  · rw [accepted, value, text]
    norm_num
  · rw [value] at fits
    exact not_lt.1 (mt fits.1 (by norm_num))

end Codec

/-! ## Literals of decimals -/

theorem Number.Decimal.abs_signed (d : Decimal) : |d.signed| = d.coefficient := by
  unfold Decimal.signed
  split <;> simp

/-- A column stores a decimal that has its places, and no more digits. -/
theorem Precision.stores_toRat {p : Precision} {d : Decimal} (places : p.places = d.places)
    (digits : digitCount d.coefficient ≤ p.digits) : p.Stores d.toRat := by
  refine ⟨d.signed, ?_, by rw [places]; rfl⟩
  rw [d.abs_signed]
  exact_mod_cast digitCount_le_iff.1 digits

namespace BuiltinDialect

variable (b : BuiltinDialect)

/-- The type for a decimal constant has its digits, at least as many as its places, and exactly its
places. -/
theorem exists_decimal_type (d : Decimal) :
    ∃ type p, literalType b.dialect.types (.decimal d) = .ok type ∧ type.family = .numeric ∧
      type.precision = some p ∧ p.frozen = false ∧
      p.digits = max (max (digitCount d.coefficient) d.places) 1 ∧ p.places = d.places := by
  obtain ⟨registered, ceiling, only, known, free, -, room⟩ := b.numeric_family
  obtain ⟨type, chosen, -⟩ := b.exists_resolve_decimal d
  have numeric : b.dialect.types.numeric (max (max (digitCount d.coefficient) d.places) 1)
      d.places = .ok type := chosen
  have adjustable : ∀ u ∈ b.dialect.types.family .numeric, u.Adjustable := by
    rw [only, List.forall_mem_singleton]
    exact ⟨ceiling, known, free⟩
  obtain ⟨u, p, first, same, set⟩ :=
    TypeCatalog.numeric_of_adjustable adjustable (by omega) numeric
  obtain rfl : u = registered := by simpa [only] using first.mem
  obtain rfl := Option.some.inj (same.symm.trans known)
  obtain ⟨w, -, -, -, family, rfl⟩ := TypeCatalog.numeric_eq_ok b.types_settled numeric
  have few := d.places_le
  exact ⟨_, _, chosen, (w.setPrecision_family _ _).trans family, set, free, rfl, by dsimp only; omega⟩

/-- Every decimal constant has a literal in every built-in dialect: there is a numeric type with its
digits and places, which stores it as it is and refuses none of its digits, and the literal is its
own text, from which the same digits and places are read. -/
theorem decimal_literal_is_whole (d : Decimal) :
    ∃ type p, literalType b.dialect.types (.decimal d) = .ok type ∧ type.family = .numeric ∧
      type.precision = some p ∧ p.places = d.places ∧
      p.digits = max (max (digitCount d.coefficient) d.places) 1 ∧ p.Stores d.toRat ∧
      (Codec.ofKind .decimal type).encode b.dialect type (.decimal d) = .ok d.toText ∧
      (∀ functions bindings arguments,
        (CompileContext.mk b.dialect functions bindings arguments).literal (.decimal d) =
          .ok { fragment := .literal d.toText (.decimal d) type }) ∧
      ∃ read, Decimal.read? d.toText.toList = some read ∧ read.signed = d.signed ∧
        read.places = d.places := by
  obtain ⟨type, p, chosen, family, precision, free, digits, places⟩ := b.exists_decimal_type d
  have whole := d.digitCount_trunc_le
  have fits : Codec.fitsDigits d type = true := by
    simp only [Codec.fitsDigits, precision, free, Bool.false_or, decide_eq_true_eq]
    omega
  have encoded : (Codec.ofKind .decimal type).encode b.dialect type (.decimal d) =
      .ok d.toText := if_pos fits
  refine ⟨type, p, chosen, family, precision, places, digits,
    Precision.stores_toRat places (by omega), encoded, fun functions bindings arguments => ?_,
    d.exists_read?_signed⟩
  have notBool : Kind.decimal ≠ .bool := by decide
  exact CompileContext.literal_of_encoded notBool chosen encoded

/-- All 96 bits and all places of a decimal are in use. -/
example :
    let d : Decimal := ⟨true, Decimal.limit - 1, 28, by decide, by decide⟩
    (literalType Dialect.mysql.types (.decimal d)).toOption.map ColumnType.declared =
        some "DECIMAL(29, 28)" ∧
      d.toText = "-7.9228162514264337593543950335" := by
  decide +kernel

end BuiltinDialect

end RowQuery
