import RowQuery.Proofs.Sql.Quotient
import RowQuery.Proofs.Integral.Operand

/-!
# Remainders

What `%` leaves of an integer or a decimal.  The remainder of integers has the sign of the divisor,
and it is what the SQL for it computes; the remainder of decimals has the sign of the dividend.
Remainders are exact, and of all dividends and divisors only the smallest integer and minus one have
none.
-/

namespace RowQuery

open Number Sql

/-- What is left of a number: the whole multiples of the divisor are gone, and what is left is
nearer to zero than the divisor. -/
structure IsRemainder (dividend divisor rest : ℚ) : Prop where
  multiple : ∃ q : ℤ, dividend = divisor * q + rest
  nearer : |rest| < |divisor|

/-- The number is zero or has the sign of the other one. -/
def HasSignOf (rest sign : ℚ) : Prop :=
  rest = 0 ∨ 0 < rest * sign

theorem IsRemainder.eq_zero_iff {a b r : ℚ} (left : IsRemainder a b r) :
    r = 0 ↔ ∃ q : ℤ, a = b * q := by
  obtain ⟨q, split⟩ := left.multiple
  constructor
  · rintro rfl
    exact ⟨q, by rw [split, add_zero]⟩
  · rintro ⟨p, divides⟩
    have multiple : r = b * ((p - q : ℤ) : ℚ) := by
      push_cast
      linarith
    have nearer := left.nearer
    rw [multiple, abs_mul] at nearer
    have small : |((p - q : ℤ) : ℚ)| < 1 := by
      by_contra large
      exact absurd nearer (not_lt.2 (le_mul_of_one_le_right (abs_nonneg b) (not_lt.1 large)))
    have same : p - q = 0 := Int.abs_lt_one_iff.1 (by exact_mod_cast small)
    rw [multiple, same, Int.cast_zero, mul_zero]

/-- A remainder with the sign of the dividend has that of the divisor too if nothing is left or
these two have the same sign. -/
theorem IsRemainder.hasSignOf_divisor_iff {a b r : ℚ} (left : IsRemainder a b r)
    (sign : HasSignOf r a) : HasSignOf r b ↔ (∃ q : ℤ, a = b * q) ∨ 0 < a * b := by
  by_cases none : r = 0
  · exact iff_of_true (.inl none) (.inl (left.eq_zero_iff.1 none))
  · have same : 0 < r * a := sign.resolve_left none
    have square : 0 < r * r := mul_self_pos.2 none
    have exchange : r * b * (r * a) = r * r * (a * b) := by ring
    have alike : 0 < r * b ↔ 0 < a * b := by
      rw [← mul_pos_iff_of_pos_right same, exchange, mul_pos_iff_of_pos_left square]
    rw [HasSignOf, ← left.eq_zero_iff, alike]

/-! ## Integers -/

theorem fmod_bounds_of_pos (a : ℤ) {b : ℤ} (positive : 0 < b) :
    |a.fmod b| < |b| ∧ (a.fmod b = 0 ∨ 0 < a.fmod b * b) := by
  have low := Int.fmod_nonneg_of_pos a positive
  rw [abs_of_nonneg low, abs_of_pos positive]
  exact ⟨Int.fmod_lt_of_pos a positive,
    low.eq_or_lt.imp Eq.symm fun more => Int.mul_pos more positive⟩

theorem fmod_bounds (a : ℤ) {b : ℤ} (nonzero : b ≠ 0) :
    |a.fmod b| < |b| ∧ (a.fmod b = 0 ∨ 0 < a.fmod b * b) := by
  rcases nonzero.lt_or_gt with negative | positive
  · have opposite := fmod_bounds_of_pos (-a) (neg_pos.2 negative)
    rwa [Int.neg_fmod_neg, abs_neg, abs_neg, neg_eq_zero, neg_mul_neg] at opposite
  · exact fmod_bounds_of_pos a positive

theorem isRemainder_fmod (a : ℤ) {b : ℤ} (nonzero : b ≠ 0) :
    IsRemainder a b (a.fmod b : ℤ) ∧ HasSignOf (a.fmod b : ℤ) b := by
  obtain ⟨nearer, sign⟩ := fmod_bounds a nonzero
  refine ⟨⟨⟨a.fdiv b, ?_⟩, by exact_mod_cast nearer⟩, by unfold HasSignOf; exact_mod_cast sign⟩
  exact_mod_cast (Int.mul_fdiv_add_fmod a b).symm

theorem toInt_ne_zero {b : Int64} (nonzero : b ≠ 0) : b.toInt ≠ 0 :=
  fun zero => nonzero (Int64.toInt_inj.1 zero)

/-- A remainder of 64-bit integers has 64 bits. -/
theorem exists_word_fmod (a : Int64) {b : Int64} (nonzero : b ≠ 0) :
    ∃ r : Int64, word? (a.toInt.fmod b.toInt) = some r ∧ r.toInt = a.toInt.fmod b.toInt := by
  have nearer := (fmod_bounds a.toInt (toInt_ne_zero nonzero)).1
  have low := b.le_toInt
  have high := b.toInt_lt
  have small : |b.toInt| ≤ 2 ^ 63 := abs_le.2 ⟨low, high.le⟩
  obtain ⟨above, below⟩ := abs_lt.1 (nearer.trans_le small)
  have same := Int64.toInt_ofInt_of_le above.le below
  exact ⟨_, word?_eq_some_iff.2 same, same⟩

/-- The operation on integers with a divisor. -/
theorem intArithmetic_mod (a : Int64) {b : Int64} (nonzero : b ≠ 0) :
    ∃ r : Int64, r.toInt = a.toInt.fmod b.toInt ∧
      Value.intArithmetic a .mod b =
        if a = Int64.minValue ∧ b = -1 then .error (Value.overflow .mod) else .ok (.int r) := by
  obtain ⟨r, fits, same⟩ := exists_word_fmod a nonzero
  refine ⟨r, same, ?_⟩
  rw [Value.intArithmetic, if_neg nonzero, Value.intRemainder, Value.fitInt, fits]
  rfl

/-! ## Decimals -/

namespace Number.Decimal

/-- The coefficient at the larger number of places. -/
theorem magnitude_aligned (a : Decimal) (places : ℕ) :
    a.magnitude = (a.coefficient * 10 ^ (places - a.places) : ℕ) / 10 ^ max a.places places := by
  have more : max a.places places = a.places + (places - a.places) := by omega
  rw [magnitude, more, pow_add]
  push_cast
  field_simp

theorem align_abs (a b : Decimal) :
    a.abs.align b.abs = (((a.coefficient * 10 ^ (b.places - a.places) : ℕ) : ℤ),
      ((b.coefficient * 10 ^ (a.places - b.places) : ℕ) : ℤ)) := by
  simp [align, signed, abs]

/-- The remainder of the magnitudes fits: one of the numbers has all places of both. -/
theorem aligned_mod_lt (a b : Decimal) (present : b.isZero = false) :
    a.coefficient * 10 ^ (b.places - a.places) % (b.coefficient * 10 ^ (a.places - b.places)) <
      limit := by
  have positive : 0 < b.coefficient := Nat.pos_of_ne_zero (by simpa [isZero] using present)
  rcases Nat.le_total b.places a.places with fewer | more
  · rw [Nat.sub_eq_zero_of_le fewer, pow_zero, mul_one]
    exact (Nat.mod_le _ _).trans_lt a.coefficient_lt
  · rw [Nat.sub_eq_zero_of_le more, pow_zero, mul_one]
    exact (Nat.mod_lt _ positive).trans b.coefficient_lt

/-- What is left of the magnitudes, with the sign of the dividend. -/
theorem rem?_spec (a : Decimal) {b : Decimal} (present : b.isZero = false) :
    ∃ r, a.rem? b = some r ∧ (∃ q : ℕ, a.magnitude = b.magnitude * q + r.magnitude) ∧
      r.magnitude < b.magnitude ∧ (r.magnitude = 0 ∨ r.negative = a.negative) := by
  have divisor : 0 < b.magnitude :=
    lt_of_le_of_ne b.magnitude_nonneg fun zero => by
      rw [eq_comm, magnitude_eq_zero_iff, present] at zero
      cases zero
  have empty : zero.magnitude = 0 := magnitude_eq_zero_iff.2 rfl
  have left := a.magnitude_aligned b.places
  have right := b.magnitude_aligned a.places
  rw [max_comm] at right
  have fits := aligned_mod_lt a b present
  have unit : (0 : ℚ) < 10 ^ max a.places b.places := by positivity
  unfold rem?
  rw [if_neg (by simp [present]), compare, align_abs]
  dsimp only
  generalize a.coefficient * 10 ^ (b.places - a.places) = x at *
  generalize b.coefficient * 10 ^ (a.places - b.places) = y at *
  split
  · rename_i none
    exact ⟨_, rfl, ⟨0, by rw [magnitude_eq_zero_iff.2 none, empty, Nat.cast_zero]; ring⟩,
      empty ▸ divisor, .inl empty⟩
  rcases lt_trichotomy x y with less | rfl | more
  · rw [if_pos (by exact_mod_cast less)]
    refine ⟨a, rfl, ⟨0, by simp⟩, ?_, .inr rfl⟩
    rw [left, right]
    exact div_lt_div_of_pos_right (by exact_mod_cast less) unit
  · rw [if_neg (lt_irrefl _), if_neg (lt_irrefl _)]
    exact ⟨_, rfl, ⟨1, by rw [left, right, empty]; simp⟩, empty ▸ divisor, .inl empty⟩
  · rw [if_neg (by omega), if_pos (by exact_mod_cast more)]
    have positive : 0 < y := by
      rw [right] at divisor
      exact_mod_cast (div_pos_iff_of_pos_right unit).1 divisor
    have room : x % y < limit ∧ max a.places b.places ≤ 28 :=
      ⟨fits, max_le a.places_le b.places_le⟩
    refine ⟨⟨a.negative && x % y != 0, x % y, max a.places b.places, room.1, room.2⟩,
      ?_, ?_, ?_, ?_⟩
    · rw [Int.natAbs_natCast, Int.natAbs_natCast, make?, fitting?, dif_pos room]
    · refine ⟨x / y, ?_⟩
      rw [left, right, magnitude]
      have parts : (x : ℚ) = y * (x / y : ℕ) + (x % y : ℕ) := by
        exact_mod_cast (Nat.div_add_mod x y).symm
      rw [parts]
      ring
    · rw [right, magnitude]
      exact div_lt_div_of_pos_right (by exact_mod_cast Nat.mod_lt _ positive) unit
    · by_cases none : x % y = 0
      · exact .inl (by simp [magnitude, none])
      · exact .inr (by simp [none])

/-- The sign of a decimal as a factor. -/
def unit (d : Decimal) : ℤ :=
  if d.negative then -1 else 1

theorem toRat_eq_mul (d : Decimal) : d.toRat = d.unit * d.magnitude := by
  rw [toRat_eq, unit]
  split <;> simp

theorem unit_mul_self (d : Decimal) : (d.unit : ℚ) * d.unit = 1 := by
  unfold unit
  split <;> norm_num

theorem signed_ofInt (i : Int64) : (ofInt i).signed = i.toInt := by
  rw [signed, ofInt, ofInt64]
  by_cases negative : i.toInt < 0
  · rw [if_pos (decide_eq_true negative)]
    dsimp only
    omega
  · rw [if_neg (by simpa using negative)]
    dsimp only
    omega

theorem toRat_ofInt (i : Int64) : (ofInt i).toRat = i.toInt := by
  rw [toRat, signed_ofInt]
  exact div_one _

/-- There is a remainder of every decimal by every other one than zero, with the sign of the
dividend. -/
theorem exists_rem? (a : Decimal) {b : Decimal} (present : b.isZero = false) :
    ∃ r, a.rem? b = some r ∧ IsRemainder a.toRat b.toRat r.toRat ∧ HasSignOf r.toRat a.toRat := by
  obtain ⟨r, found, ⟨q, split⟩, nearer, sign⟩ := rem?_spec a present
  have signed : r.toRat = a.unit * r.magnitude := by
    rw [toRat_eq_mul]
    rcases sign with none | same
    · rw [none, mul_zero, mul_zero]
    · rw [unit, same, unit]
  refine ⟨r, found, ⟨⟨a.unit * b.unit * q, ?_⟩, ?_⟩, ?_⟩
  · have positive := b.unit_mul_self
    rw [signed, toRat_eq_mul a, toRat_eq_mul b, split]
    push_cast
    linear_combination (-(a.unit : ℚ) * b.magnitude * q) * positive
  · rwa [abs_toRat, abs_toRat]
  · by_cases none : r.magnitude = 0
    · exact .inl (by rw [signed, none, mul_zero])
    · refine .inr ?_
      have more : 0 < r.magnitude := lt_of_le_of_ne r.magnitude_nonneg (Ne.symm none)
      have whole : 0 < a.magnitude := by
        rw [split]
        have := mul_nonneg b.magnitude_nonneg q.cast_nonneg
        linarith
      have same : r.toRat * a.toRat = r.magnitude * a.magnitude := by
        rw [signed, toRat_eq_mul a]
        linear_combination (r.magnitude * a.magnitude) * a.unit_mul_self
      rw [same]
      exact mul_pos more whole

end Number.Decimal

namespace Value

/-- The number that an integer or a decimal is. -/
def asRational? : Value → Option ℚ
  | int i => some i.toInt
  | decimal d => some d.toRat
  | _ => none

/-- There is a remainder of two exact numbers, and it is zero or has the sign of the divisor. -/
def Floors (a b : Value) : Prop :=
  ∃ v x y r, a.arithmetic .mod b = .ok v ∧ a.asRational? = some x ∧ b.asRational? = some y ∧
    v.asRational? = some r ∧ IsRemainder x y r ∧ HasSignOf r y

theorem asRational?_eq_some_iff {v : Value} {x : ℚ} :
    v.asRational? = some x ↔ ∃ d, v.asDecimal? = some d ∧ d.toRat = x := by
  cases v with
  | int i => simp [asRational?, asDecimal?, Decimal.toRat_ofInt]
  | decimal d => simp [asRational?, asDecimal?]
  | _ => simp [asRational?, asDecimal?]

theorem floors_iff {a b v : Value} {x y r : ℚ} (found : a.arithmetic .mod b = .ok v)
    (left : a.asRational? = some x) (right : b.asRational? = some y)
    (result : v.asRational? = some r) (rest : IsRemainder x y r) : Floors a b ↔ HasSignOf r y := by
  constructor
  · rintro ⟨v', x', y', r', found', left', right', result', -, sign⟩
    cases right.symm.trans right'
    cases found.symm.trans found'
    cases result.symm.trans result'
    exact sign
  · exact fun sign => ⟨v, x, y, r, found, left, right, result, rest, sign⟩

theorem floors_int_iff (a : Int64) {b : Int64} (nonzero : b ≠ 0) :
    Floors (int a) (int b) ↔ ¬(a = Int64.minValue ∧ b = -1) := by
  obtain ⟨r, same, ended⟩ := intArithmetic_mod a nonzero
  obtain ⟨rest, sign⟩ := isRemainder_fmod a.toInt (toInt_ne_zero nonzero)
  by_cases extreme : a = Int64.minValue ∧ b = -1
  · rw [if_pos extreme] at ended
    refine iff_of_false ?_ (not_not.2 extreme)
    rintro ⟨v, x, y, r, found, -⟩
    cases ended.symm.trans found
  · rw [if_neg extreme] at ended
    refine iff_of_true ?_ extreme
    have whole : arithmetic (int a) .mod (int b) = .ok (int r) := ended
    exact (floors_iff whole rfl rfl rfl (same ▸ rest)).2 (same ▸ sign)

theorem floors_decimal_iff {a b : Value} {x y : Decimal} (left : a.asDecimal? = some x)
    (right : b.asDecimal? = some y) (oneDecimal : a.kind = .decimal ∨ b.kind = .decimal)
    (nonzero : y.toRat ≠ 0) :
    ∃ r, a.arithmetic .mod b = .ok (decimal r) ∧ IsRemainder x.toRat y.toRat r.toRat ∧
      HasSignOf r.toRat x.toRat ∧
      (Floors a b ↔ (∃ q : ℤ, x.toRat = y.toRat * q) ∨ 0 < x.toRat * y.toRat) := by
  have present : y.isZero = false :=
    Bool.eq_false_iff.2 fun zero => nonzero (Decimal.toRat_eq_zero_iff.2 zero)
  obtain ⟨r, found, rest, sign⟩ := x.exists_rem? present
  have ended : a.arithmetic .mod b = .ok (decimal r) := by
    rw [arithmetic_of_asDecimal left right oneDecimal, decimalArithmetic, present, found]
    rfl
  refine ⟨r, ended, rest, sign, ?_⟩
  have dividend := asRational?_eq_some_iff.2 ⟨x, left, rfl⟩
  have divisor := asRational?_eq_some_iff.2 ⟨y, right, rfl⟩
  rw [floors_iff ended dividend divisor rfl rest, rest.hasSignOf_divisor_iff sign]

end Value

/-! ## The SQL of a remainder -/

/-- The SQL for a remainder of integers has the remainder with the sign of the divisor as its
value. -/
theorem BuiltinDialect.exists_reads_floorModulo (d : BuiltinDialect) {l r : String}
    {a b : Expression} (left : Sql.Reads d.mark operandPower l a)
    (right : Sql.Reads d.mark operandPower r b) (power : ℕ) :
    ∃ e, Sql.Reads d.mark power (d.dialect.floorModulo l r) e ∧
      ∀ env i j, a.eval env = some i → b.eval env = some j → j ≠ 0 →
        e.eval env = some (i.fmod j) := by
  obtain ⟨inner, written, reads⟩ := d.usual.reads_floorModulo left right
  refine ⟨_, written ▸ reads.bracketed d.usual.isMark (by decide) power, ?_⟩
  intro env i j dividend divisor nonzero
  exact Arithmetic.eval_expression dividend divisor (if_neg nonzero)

/-- Integers have the remainder with the sign of the divisor, but for the smallest one by minus one,
and SQL computes it.  A remainder in which a decimal takes part has the sign of the dividend. -/
theorem remainder_takes_sign_of_divisor_iff {a b : Value} {x y : ℚ} (left : a.asRational? = some x)
    (right : b.asRational? = some y) (nonzero : y ≠ 0) :
    (∀ i j : Int64, a = .int i → b = .int j →
      (a.Floors b ↔ ¬(i = Int64.minValue ∧ j = -1)) ∧
      (∃ r : Int64, r.toInt = i.toInt.fmod j.toInt ∧
        a.arithmetic .mod b =
          if i = Int64.minValue ∧ j = -1 then .error (Value.overflow .mod) else .ok (.int r)) ∧
      ∀ (d : BuiltinDialect) (l r : String) (el er : Expression),
        Reads d.mark operandPower l el → Reads d.mark operandPower r er →
        ∃ e, Reads d.mark atomPower (d.dialect.floorModulo l r) e ∧
          ∀ env, el.eval env = some i.toInt → er.eval env = some j.toInt →
            e.eval env = some (i.toInt.fmod j.toInt)) ∧
      (a.kind = .decimal ∨ b.kind = .decimal →
        (a.Floors b ↔ (∃ q : ℤ, x = y * q) ∨ 0 < x * y) ∧
        ∃ r, a.arithmetic .mod b = .ok (.decimal r) ∧ IsRemainder x y r.toRat ∧
          HasSignOf r.toRat x) := by
  constructor
  · rintro i j rfl rfl
    cases right
    have present : j ≠ 0 := by
      rintro rfl
      exact nonzero rfl
    refine ⟨Value.floors_int_iff i present, intArithmetic_mod i present, ?_⟩
    intro d l r el er readsLeft readsRight
    obtain ⟨e, reads, value⟩ := d.exists_reads_floorModulo readsLeft readsRight atomPower
    exact ⟨e, reads, fun env dividend divisor =>
      value env _ _ dividend divisor (toInt_ne_zero present)⟩
  · intro oneDecimal
    obtain ⟨p, dividend, rfl⟩ := Value.asRational?_eq_some_iff.1 left
    obtain ⟨q, divisor, rfl⟩ := Value.asRational?_eq_some_iff.1 right
    obtain ⟨r, ended, rest, sign, floors⟩ :=
      Value.floors_decimal_iff dividend divisor oneDecimal nonzero
    exact ⟨floors, r, ended, rest, sign⟩

/-- Minus seven and a half. -/
def minusSevenAndHalf : Decimal :=
  { Term.threeAndHalf with negative := true, coefficient := 75, coefficient_lt := by decide }

/-- The remainder of minus seven and a half by two is negative, and that of minus seven by three is
two, in SQL as well. -/
theorem remainder_of_minusSevenAndHalf :
    ¬(Value.decimal minusSevenAndHalf).Floors (.int 2) ∧ (Value.int (-7)).Floors (.int 3) ∧
      ∃ e, Reads BuiltinDialect.sqlite.mark atomPower
          (BuiltinDialect.sqlite.dialect.floorModulo (intText (-7)) (intText 3)) e ∧
        ∀ env, e.eval env = some 2 := by
  have isMark := BuiltinDialect.sqlite.usual.isMark
  have dividend : (Value.decimal minusSevenAndHalf).asRational? = some (-15 / 2) := by
    refine congrArg some ?_
    norm_num [Decimal.toRat, Decimal.signed, minusSevenAndHalf, Term.threeAndHalf]
  have divisor : (Value.int 2).asRational? = some 2 := by
    have two : (2 : Int64).toInt = 2 := rfl
    rw [Value.asRational?, two]
    rfl
  have decimals := (remainder_takes_sign_of_divisor_iff dividend divisor two_ne_zero).2 (.inl rfl)
  have integers := (remainder_takes_sign_of_divisor_iff (a := .int (-7)) (b := .int 3) rfl rfl
    (by decide)).1 (-7) 3 rfl rfl
  refine ⟨fun floors => ?_, integers.1.2 (by decide), ?_⟩
  · rcases decimals.1.1 floors with ⟨q, multiple⟩ | same
    · have odd : (-15 : ℤ) = 4 * q := by
        have scaled : (-15 : ℚ) = 4 * q := by linarith
        exact_mod_cast scaled
      omega
    · norm_num at same
  · obtain ⟨e, reads, value⟩ := integers.2.2 .sqlite _ _ _ _ (.int isMark (-7)) (.int isMark 3)
    refine ⟨e, reads, fun env => ?_⟩
    exact value env (Expression.eval_ofInt env _) (Expression.eval_ofInt env _)

end RowQuery
