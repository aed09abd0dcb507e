import Mathlib.Data.Rat.Cast.Order
import Mathlib.Tactic.FieldSimp
import Mathlib.Tactic.Positivity
import RowQuery.Proofs.Types.Capacity

/-!
# Requests for decimals

Decimals with so many digits, of which so many stand behind the point, are declared with the first
numeric type that has the digits.  Whether it has the places is not looked at: places that it does
not have are cut off, and with them the digits of most of the numbers asked for.  So the numbers are
stored as they are exactly if the type happens to have the places.
-/

namespace RowQuery

open RowQuery.Number

namespace Precision

/-- A column stores a number as it is: it is a whole number of units of the last place, and these
have no more digits than the column. -/
def Stores (p : Precision) (x : ℚ) : Prop :=
  ∃ n : ℤ, |n| < 10 ^ p.digits ∧ x = n / 10 ^ p.places

/-- All numbers of so many digits, so many of them behind the point, are stored as they are. -/
def StoresAll (p : Precision) (digits places : ℕ) : Prop :=
  ∀ m : ℤ, |m| < 10 ^ digits → p.Stores (m / 10 ^ places)

variable {p : Precision} {digits places : ℕ}

/-- A unit of the last place is stored if there are as many places. -/
theorem places_le_of_stores (stored : p.Stores ((1 : ℤ) / 10 ^ places)) : places ≤ p.places := by
  obtain ⟨n, -, same⟩ := stored
  have whole : (10 : ℤ) ^ places * n = 10 ^ p.places := by
    field_simp at same
    rw [Int.cast_one, one_mul] at same
    exact_mod_cast same.symm
  refine (Nat.pow_dvd_pow_iff_le_right (by decide : 1 < 10)).mp ?_
  exact_mod_cast Dvd.intro n whole

/-- With as many places a number is stored if its units of the last place have few enough digits. -/
theorem stores_iff (enough : places ≤ p.places) (m : ℤ) :
    p.Stores (m / 10 ^ places) ↔ |m| * 10 ^ (p.places - places) < 10 ^ p.digits := by
  have scaled : (10 : ℚ) ^ p.places = 10 ^ places * 10 ^ (p.places - places) := by
    rw [← pow_add, Nat.add_sub_cancel' enough]
  have units (n : ℤ) : (m : ℚ) / 10 ^ places = n / 10 ^ p.places ↔
      n = m * 10 ^ (p.places - places) := by
    rw [scaled]
    field_simp
    norm_cast
    exact eq_comm
  simp only [Stores, units, exists_eq_right, abs_mul, abs_pow, Nat.abs_ofNat]

/-- The numbers are stored if there are as many places, and as many digits in front of the point. -/
theorem storesAll_iff (some : 0 < digits) :
    p.StoresAll digits places ↔
      places ≤ p.places ∧ (digits : ℤ) - places ≤ p.digits - p.places := by
  have one : |(1 : ℤ)| < 10 ^ digits := by
    rw [abs_one]
    exact one_lt_pow₀ (by decide) (by omega)
  constructor
  · intro all
    have enough : places ≤ p.places := places_le_of_stores (all 1 one)
    -- The largest of the numbers has nothing but nines.
    have nines : |(10 ^ digits - 1 : ℤ)| = 10 ^ digits - 1 := abs_of_nonneg (by
      have : (0 : ℤ) < 10 ^ digits := by positivity
      omega)
    have stored := (stores_iff enough _).mp (all (10 ^ digits - 1) (by rw [nines]; omega))
    refine ⟨enough, ?_⟩
    by_contra short
    have less : p.digits ≤ digits - 1 + (p.places - places) := by omega
    have nine : (10 : ℤ) ^ (digits - 1) ≤ 10 ^ digits - 1 := by
      obtain ⟨fewer, rfl⟩ := Nat.exists_eq_add_of_lt some
      have : (1 : ℤ) ≤ 10 ^ fewer := one_le_pow₀ (by decide)
      simp only [Nat.zero_add, Nat.add_sub_cancel, pow_succ]
      omega
    rw [nines] at stored
    have room : (10 : ℤ) ^ p.digits ≤ (10 ^ digits - 1) * 10 ^ (p.places - places) :=
      calc (10 : ℤ) ^ p.digits ≤ 10 ^ (digits - 1 + (p.places - places)) :=
            pow_le_pow_right₀ (by decide) less
        _ = 10 ^ (digits - 1) * 10 ^ (p.places - places) := pow_add _ _ _
        _ ≤ (10 ^ digits - 1) * 10 ^ (p.places - places) :=
            mul_le_mul_of_nonneg_right nine (by positivity)
    exact absurd stored (not_lt.mpr room)
  · rintro ⟨enough, front⟩ m small
    rw [stores_iff enough]
    calc |m| * 10 ^ (p.places - places)
        < 10 ^ digits * 10 ^ (p.places - places) := mul_lt_mul_of_pos_right small (by positivity)
      _ = 10 ^ (digits + (p.places - places)) := (pow_add _ _ _).symm
      _ ≤ 10 ^ p.digits := pow_le_pow_right₀ (by decide) (by omega)

end Precision

namespace ColumnType

/-- The digits and places of the type can be set. -/
def Adjustable (t : ColumnType) : Prop :=
  ∃ p, t.precision = some p ∧ p.frozen = false

/-- Digits within the ceiling are set as they are asked for; places are cut off at theirs. -/
theorem setPrecision_of_adjustable {t : ColumnType} {p : Precision} {digits places : ℕ}
    (known : t.precision = some p) (free : p.frozen = false) (room : digits ≤ p.maxDigits)
    (few : places ≤ digits) :
    (t.setPrecision digits places).precision =
      some { p with digits, places := min places p.maxPlaces } := by
  have cut : min (min places p.maxPlaces) digits = min places p.maxPlaces :=
    Nat.min_eq_left (Nat.le_trans (Nat.min_le_left _ _) few)
  simp only [setPrecision, known, free, Bool.false_eq_true, if_false, Nat.min_eq_left room, cut]

end ColumnType

namespace TypeCatalog

variable {c : TypeCatalog}

/-- The type for decimals is the first that has the digits, with as many of the places as it has. -/
theorem numeric_of_adjustable (adjustable : ∀ u ∈ c.family .numeric, u.Adjustable)
    {digits places : ℕ} (few : places ≤ digits) {t : ColumnType}
    (chosen : c.numeric digits places = .ok t) :
    ∃ u p, c.IsFirst .numeric (digits ≤ ·.maxDigits) u ∧ u.precision = some p ∧
      t.precision = some { p with digits, places := min places p.maxPlaces } := by
  unfold numeric at chosen
  split at chosen
  · rename_i u found
    obtain rfl := Except.ok.inj chosen
    have first : c.IsFirst .numeric (digits ≤ ·.maxDigits) u :=
      isFirst_of_find? (by simp) found
    obtain ⟨p, known, free⟩ := adjustable u first.mem
    have room : digits ≤ p.maxDigits := by
      have : digits ≤ u.maxDigits := by simpa using List.find?_some found
      simpa [ColumnType.maxDigits, known] using this
    exact ⟨u, p, first, known, ColumnType.setPrecision_of_adjustable known free room few⟩
  · cases chosen

/-- Decimals are refused only where no type has the digits. -/
theorem numeric_eq_error_iff {digits places : ℕ} {fault : Fault} :
    c.numeric digits places = .error fault ↔
      fault = .capacity ("precision " ++ natText digits ++
        " exceeds every numeric type in " ++ c.name) ∧
      ∀ u ∈ c.family .numeric, u.maxDigits < digits := by
  unfold numeric
  cases found : (c.family .numeric).find? fun t => decide (digits ≤ t.maxDigits) with
  | some t =>
      have room : digits ≤ t.maxDigits := by simpa using List.find?_some found
      have known := List.mem_of_find?_eq_some found
      simp only [reduceCtorEq, false_iff, not_and, not_forall]
      exact fun _ => ⟨t, known, Nat.not_lt.mpr room⟩
  | none =>
      have short : ∀ u ∈ c.family .numeric, u.maxDigits < digits := by
        simpa using List.find?_eq_none.mp found
      simp only [Except.error.injEq]
      exact ⟨fun same => ⟨same.symm, short⟩, fun same => same.1.symm⟩

/-- The type for decimals stores all the numbers that are asked for exactly if the first type with
the digits has the places too; otherwise it has as many places as that one.  The request is refused
exactly if no type has the digits, also if none has the places. -/
theorem decimals_keep_digits_iff (adjustable : ∀ u ∈ c.family .numeric, u.Adjustable)
    {digits places : ℕ} (few : places ≤ digits) (bytes : Option ℕ) (isSigned : Option Bool) :
    (∀ t, c.resolve .decimal { bytes, digits := some digits, places := some places, isSigned } =
        .ok t →
      ∃ u p q, c.IsFirst .numeric (digits ≤ ·.maxDigits) u ∧ u.precision = some p ∧
        t.precision = some q ∧ q.digits = digits ∧ q.places = min places p.maxPlaces ∧
        (q.StoresAll digits places ↔ places ≤ p.maxPlaces) ∧
        (places ≤ q.places ∧ digits - places ≤ (q.digits - q.places : ℤ) ↔
          places ≤ p.maxPlaces)) ∧
      ∀ fault,
        c.resolve .decimal { bytes, digits := some digits, places := some places, isSigned } =
            .error fault ↔
          fault = .capacity ("precision " ++ natText digits ++
            " exceeds every numeric type in " ++ c.name) ∧
          ∀ u ∈ c.family .numeric, u.maxDigits < digits := by
  simp only [resolve, Option.getD_some]
  refine ⟨fun t chosen => ?_, fun fault => numeric_eq_error_iff⟩
  obtain ⟨u, p, first, known, set⟩ := numeric_of_adjustable adjustable few chosen
  have figures : places ≤ min places p.maxPlaces ∧
      (digits : ℤ) - places ≤ digits - (min places p.maxPlaces : ℕ) ↔ places ≤ p.maxPlaces := by
    omega
  refine ⟨u, p, _, first, known, set, rfl, rfl, ?_, figures⟩
  rcases Nat.eq_zero_or_pos digits with rfl | some
  · obtain rfl := Nat.le_zero.mp few
    refine iff_of_true (fun m small => ⟨0, by simp, ?_⟩) (Nat.zero_le _)
    have : m = 0 := by simpa using small
    simp [this]
  · rw [Precision.storesAll_iff some]
    exact figures

/-- MySQL has decimals of 65 digits with at most 30 places.  A request for 50 digits with 40 places
is met with 30 places, so that a unit of the fortieth place is lost. -/
theorem mysql_drops_places :
    (∀ u ∈ Dialect.mysqlTypes.family .numeric, u.Adjustable) ∧
      ∃ t q, Dialect.mysqlTypes.resolve .decimal { digits := some 50, places := some 40 } = .ok t ∧
        t.declared = "DECIMAL(50, 30)" ∧ t.precision = some q ∧ ¬ q.StoresAll 50 40 := by
  have only : ∀ u ∈ Dialect.mysqlTypes.family .numeric,
      u.precision = some ⟨65, 30, 18, 6, false⟩ := by decide
  have adjustable : ∀ u ∈ Dialect.mysqlTypes.family .numeric, u.Adjustable :=
    fun u known => ⟨_, only u known, rfl⟩
  let registered := (ColumnType.decimalOf "DECIMAL" 65 30).withSynonyms ["numeric"]
  have chosen : Dialect.mysqlTypes.resolve .decimal { digits := some 50, places := some 40 } =
      .ok (registered.setPrecision 50 40) := by
    rfl
  obtain ⟨u, p, q, first, known, set, -, -, stores, -⟩ :=
    (decimals_keep_digits_iff adjustable (by decide : 40 ≤ 50) none none).1 _ chosen
  obtain rfl := Option.some.inj (known.symm.trans (only u first.mem))
  exact ⟨adjustable, _, q, chosen, by decide +kernel, set,
    fun all => absurd (stores.mp all) (by decide)⟩

end TypeCatalog

end RowQuery
