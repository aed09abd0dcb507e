import RowQuery.Proofs.Number.Product

/-!
# Decimal seconds as intervals

A decimal number of seconds is the interval of its microseconds, rounded to the even neighbour, if
these are counted by 64 bits.  The seconds are multiplied first, but the product has no digits that
are lost before the microseconds are rounded.
-/

namespace RowQuery

open RowQuery.Number RowQuery.Calendar

namespace Number.Decimal

/-- The whole number next to a decimal, if it fits. -/
theorem toInt64?_round (d : Decimal) : d.round.toInt64? = word? (roundEven d.toRat) := by
  have rounded : (roundDiv d.coefficient (10 ^ d.places) : ℤ) = roundEven d.magnitude := by
    rw [roundDiv_eq_roundEven _ (by positivity), magnitude]
    push_cast
    rfl
  have signed : d.round.trunc.signed = roundEven d.toRat := by
    rw [toRat_eq]
    unfold signed
    change (if d.negative then -((roundDiv d.coefficient (10 ^ d.places) / 10 ^ 0 : ℕ) : ℤ)
      else ((roundDiv d.coefficient (10 ^ d.places) / 10 ^ 0 : ℕ) : ℤ)) = _
    rw [Nat.pow_zero, Nat.div_one, rounded]
    split
    · rw [roundEven_neg]
    · rfl
  rw [toInt64?, signed]

/-- A million times a decimal is found exactly, unless it is too large. -/
theorem mul?_million (d : Decimal) :
    (∃ product, d.mul? million = some product ∧ product.toRat = d.toRat * 10 ^ 6) ∨
      d.mul? million = none ∧ (limit : ℚ) ≤ |d.toRat * 10 ^ 6| := by
  have few : d.places + million.places ≤ 28 := d.places_le
  have places : d.places + million.places = d.places := rfl
  have coefficient : d.coefficient * million.coefficient = d.coefficient * 10 ^ 6 := rfl
  -- Six digits can be dropped if there are as many places, and no more than the places are.
  have dropped : d.places - heldPlaces (d.coefficient * 10 ^ 6) d.places ≤ 6 := by
    rcases Nat.lt_or_ge d.places 6 with short | long
    · omega
    · have room : HasRoom (d.coefficient * 10 ^ 6) (d.places - (d.places - 6)) := by
        rw [Nat.sub_sub_self long, HasRoom, roundDiv_of_dvd (Nat.dvd_mul_left _ _),
          Nat.mul_div_cancel _ (by decide)]
        exact d.coefficient_lt
      have kept : d.places - 6 ≤ heldPlaces (d.coefficient * 10 ^ 6) d.places :=
        Nat.le_findGreatest (P := fun kept => HasRoom _ (d.places - kept)) (Nat.sub_le _ _) room
      omega
  have exact : held (d.coefficient * 10 ^ 6) d.places = d.magnitude * 10 ^ 6 := by
    rw [held_of_dvd ((Nat.pow_dvd_pow 10 dropped).trans (Nat.dvd_mul_left _ _)), magnitude]
    push_cast
    ring
  by_cases room : HasRoom (d.coefficient * 10 ^ 6)
      (d.places - heldPlaces (d.coefficient * 10 ^ 6) d.places)
  · left
    obtain ⟨product, found, value⟩ := exists_mul? (b := million) few (by rwa [places, coefficient])
    refine ⟨product, found, ?_⟩
    rw [value, places, coefficient, exact, toRat_eq]
    cases d.negative
    · rfl
    · exact (neg_mul _ _).symm
  · right
    have large := limit_le_held room
    have nonzero : d.isZero = false := by
      rw [← Bool.not_eq_true]
      intro zero
      rw [exact, magnitude_eq_zero_iff.mpr zero] at large
      norm_num [limit] at large
    constructor
    · rw [mul?_eq few ⟨nonzero, rfl⟩, places, coefficient]
      exact if_neg room
    · rwa [abs_mul, abs_toRat, abs_of_pos (by norm_num : (0 : ℚ) < 10 ^ 6), ← exact]

end Number.Decimal

/-- What is too large for 64 bits is too large after it has been rounded. -/
theorem word?_roundEven_of_large {x : ℚ} (large : (Decimal.limit : ℚ) ≤ |x|) :
    word? (roundEven x) = none := by
  rw [Option.eq_none_iff_forall_ne_some]
  intro w found
  have value := word?_eq_some_iff.mp found
  have low : (-2 ^ 63 : ℚ) ≤ roundEven x := by
    rw [← value]
    exact_mod_cast w.le_toInt
  have high : (roundEven x : ℚ) < 2 ^ 63 := by
    rw [← value]
    exact_mod_cast w.toInt_lt
  have near := abs_sub_roundEven_le x
  have bound : |x| ≤ 2 ^ 63 + 1 / 2 := by
    rw [abs_le] at near ⊢
    constructor <;> linarith
  norm_num [Decimal.limit] at large bound
  linarith

namespace Calendar.Interval

theorem eq_iff {i j : Interval} : i = j ↔ i.nanos = j.nanos := by
  cases i
  cases j
  simp

/-- Nanoseconds are those of an interval exactly if one has so many. -/
theorem ofNanos?_eq_some_iff {nanos : Int} {i : Interval} :
    ofNanos? nanos = some i ↔ i.nanos = nanos := by
  unfold ofNanos?
  split
  · rw [Option.some.injEq, eq_iff]
    exact eq_comm
  · rename_i outOfRange
    refine iff_of_false (by simp) ?_
    rintro rfl
    exact outOfRange i.inRange

theorem exists_ofNanos? (nanos : Int) (short : -longest ≤ nanos ∧ nanos ≤ longest) :
    ∃ i, ofNanos? nanos = some i ∧ i.nanos = nanos :=
  ⟨⟨nanos, short⟩, dif_pos short, rfl⟩

theorem add?_eq_some_iff {i j sum : Interval} :
    i.add? j = some sum ↔ sum.nanos = i.nanos + j.nanos :=
  ofNanos?_eq_some_iff

/-- The interval of a number of seconds has its microseconds, and there is one if these are counted
by 64 bits. -/
theorem ofSecondsDecimal?_eq_some_iff {d : Decimal} {i : Interval} :
    ofSecondsDecimal? d = some i ↔
      ∃ micros : Int64, micros.toInt = roundEven (d.toRat * 10 ^ 6) ∧
        i.nanos = micros.toInt * 1000 := by
  have rounds : (ofSecondsDecimal? d = some i) ↔ ∃ micros,
      word? (roundEven (d.toRat * 10 ^ 6)) = some micros ∧ ofMicros? micros.toInt = some i := by
    rcases d.mul?_million with ⟨product, found, value⟩ | ⟨none, large⟩
    · simp only [ofSecondsDecimal?, found, Option.bind_eq_bind, Option.bind_some,
        Decimal.toInt64?_round, value, Option.bind_eq_some_iff]
    · simp [ofSecondsDecimal?, none, word?_roundEven_of_large large]
  simp only [rounds, word?_eq_some_iff, ofMicros?, ofNanos?_eq_some_iff]

theorem exists_ofSecondsDecimal? {d : Decimal}
    (counted : -2 ^ 63 ≤ roundEven (d.toRat * 10 ^ 6) ∧ roundEven (d.toRat * 10 ^ 6) < 2 ^ 63) :
    ∃ i, ofSecondsDecimal? d = some i ∧ i.nanos = 1000 * roundEven (d.toRat * 10 ^ 6) := by
  generalize micros : roundEven (d.toRat * 10 ^ 6) = n at counted
  have short : -longest ≤ 1000 * n ∧ 1000 * n ≤ longest := by
    unfold longest
    omega
  refine ⟨⟨1000 * n, short⟩, ofSecondsDecimal?_eq_some_iff.mpr ⟨Int64.ofInt n, ?_⟩, rfl⟩
  rw [Int64.toInt_ofInt_of_le counted.1 counted.2, micros]
  exact ⟨rfl, Int.mul_comm _ _⟩

end Calendar.Interval

end RowQuery
