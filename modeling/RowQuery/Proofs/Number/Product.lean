import Mathlib.Data.Nat.Cast.Field
import Mathlib.Data.Nat.Find
import Mathlib.Data.Rat.Floor
import RowQuery.Proofs.Number.Division
import RowQuery.Proofs.Number.Reading

/-!
# Rounding to the even neighbour and products of decimals

A rational number is rounded to the nearest whole number, and a half to the even neighbour.  This is
how quotients of natural numbers are rounded, and it does not matter whether an even number is added
before or after.

A product has the digits of both factors.  Where these are too many it keeps as many places as have
room; the last place that is kept is rounded in this way.  The first guess at the number of digits
that have to go, from the length in bits, is never too large, so no digit is dropped that had room.
-/

namespace RowQuery

open RowQuery.Number

/-- The whole number next to a rational number; a half goes to the even neighbour. -/
def roundEven (x : ℚ) : ℤ :=
  if x - ⌊x⌋ < 1 / 2 then ⌊x⌋ else if 1 / 2 < x - ⌊x⌋ then ⌊x⌋ + 1 else ⌊x⌋ + ⌊x⌋ % 2

/-- What lies less than a half away from a whole number is rounded to it, and a half if that number
is even. -/
theorem roundEven_eq {x : ℚ} {n : ℤ}
    (near : |x - n| < 1 / 2 ∨ |x - n| = 1 / 2 ∧ n % 2 = 0) : roundEven x = n := by
  unfold roundEven
  rcases le_or_gt (n : ℚ) x with above | below
  · have floor : ⌊x⌋ = n := by
      rw [abs_of_nonneg (sub_nonneg.mpr above)] at near
      rw [Int.floor_eq_iff]
      refine ⟨above, ?_⟩
      rcases near with near | ⟨near, -⟩ <;> linarith
    rw [floor]
    rw [abs_of_nonneg (sub_nonneg.mpr above)] at near
    rcases near with near | ⟨half, even⟩
    · rw [if_pos near]
    · rw [half, if_neg (lt_irrefl _), if_neg (lt_irrefl _), even, add_zero]
  · rw [abs_of_neg (sub_neg.mpr below)] at near
    have floor : ⌊x⌋ = n - 1 := by
      rw [Int.floor_eq_iff]
      push_cast
      rcases near with near | ⟨near, -⟩ <;> constructor <;> linarith
    rw [floor]
    push_cast
    rcases near with near | ⟨half, even⟩
    · rw [if_neg (by linarith), if_pos (by linarith)]
      omega
    · rw [if_neg (by linarith), if_neg (by linarith)]
      omega

/-- What a number is rounded to is less than a half away, or a half and even. -/
theorem roundEven_near (x : ℚ) :
    |x - roundEven x| < 1 / 2 ∨ |x - roundEven x| = 1 / 2 ∧ roundEven x % 2 = 0 := by
  have low := Int.floor_le x
  have high := Int.lt_floor_add_one x
  unfold roundEven
  split
  · rename_i near
    left
    rwa [abs_of_nonneg (by linarith)]
  · split
    · rename_i near
      left
      push_cast
      rw [abs_of_neg (by linarith)]
      linarith
    · rename_i less more
      right
      have half : x - ⌊x⌋ = 1 / 2 := le_antisymm (not_lt.mp more) (not_lt.mp less)
      refine ⟨?_, by omega⟩
      rcases Int.emod_two_eq_zero_or_one ⌊x⌋ with even | odd
      · rw [even, add_zero, half, abs_of_nonneg (by norm_num)]
      · rw [odd]
        push_cast
        rw [show x - (⌊x⌋ + 1) = -(1 / 2) by linarith, abs_neg, abs_of_nonneg (by norm_num)]

theorem abs_sub_roundEven_le (x : ℚ) : |x - roundEven x| ≤ 1 / 2 :=
  (roundEven_near x).elim le_of_lt fun half => half.1.le

@[simp]
theorem roundEven_intCast (n : ℤ) : roundEven n = n :=
  roundEven_eq (.inl (by norm_num))

@[simp]
theorem roundEven_zero : roundEven 0 = 0 :=
  roundEven_intCast 0

theorem roundEven_neg (x : ℚ) : roundEven (-x) = -roundEven x := by
  refine roundEven_eq ?_
  have opposite : |-x - (-roundEven x : ℤ)| = |x - roundEven x| := by
    rw [← abs_neg]
    congr 1
    push_cast
    ring
  rw [opposite]
  refine (roundEven_near x).imp_right fun half => ⟨half.1, ?_⟩
  omega

/-- An even number can be added before or after. -/
theorem roundEven_add_even (x : ℚ) {n : ℤ} (even : n % 2 = 0) :
    roundEven (n + x) = n + roundEven x := by
  refine roundEven_eq ?_
  have same : |n + x - (n + roundEven x : ℤ)| = |x - roundEven x| := by
    push_cast
    rw [add_sub_add_left_eq_sub]
  rw [same]
  refine (roundEven_near x).imp_right fun half => ⟨half.1, ?_⟩
  omega

namespace Number.Decimal

/-- A quotient of natural numbers is rounded in this way. -/
theorem roundDiv_eq_roundEven (num : ℕ) {den : ℕ} (positive : 0 < den) :
    (roundDiv num den : ℤ) = roundEven (num / den) := by
  have nonzero : (0 : ℚ) < den := by exact_mod_cast positive
  have floor : ⌊(num : ℚ) / den⌋ = (num / den : ℕ) := Rat.floor_natCast_div_natCast num den
  have rest : (num : ℚ) / den - ((num / den : ℕ) : ℤ) = (num % den : ℕ) / den := by
    have split : (num : ℚ) = den * (num / den : ℕ) + (num % den : ℕ) := by
      exact_mod_cast (Nat.div_add_mod num den).symm
    rw [Int.cast_natCast, sub_eq_iff_eq_add', div_eq_iff nonzero.ne', add_mul,
      div_mul_cancel₀ _ nonzero.ne', mul_comm _ (den : ℚ)]
    exact split
  have below : ((num % den : ℕ) : ℚ) / den < 1 / 2 ↔ 2 * (num % den) < den := by
    rw [div_lt_div_iff₀ nonzero two_pos, one_mul, mul_comm]
    exact_mod_cast Iff.rfl
  have above : 1 / 2 < ((num % den : ℕ) : ℚ) / den ↔ den < 2 * (num % den) := by
    rw [div_lt_div_iff₀ two_pos nonzero, one_mul, mul_comm _ (2 : ℚ)]
    exact_mod_cast Iff.rfl
  simp only [roundEven, floor, rest, below, above, roundDiv, Bool.or_eq_true, Bool.and_eq_true,
    decide_eq_true_eq, beq_iff_eq]
  split_ifs <;> omega

/-! ## Products -/

theorem roundDiv_of_dvd {num den : ℕ} (whole : den ∣ num) : roundDiv num den = num / den := by
  have none : num % den = 0 := Nat.mod_eq_zero_of_dvd whole
  rcases Nat.eq_zero_or_pos den with rfl | positive
  · obtain rfl := Nat.eq_zero_of_zero_dvd whole
    rfl
  · simp only [roundDiv, none, Nat.mul_zero, Nat.not_lt_zero, decide_false, Bool.false_or,
      Bool.and_eq_true, beq_iff_eq, positive.ne, false_and, if_false]

/-- There is room for the digits without the last so many of them, which are rounded. -/
def HasRoom (n dropped : ℕ) : Prop :=
  roundDiv n (10 ^ dropped) < limit

instance (n dropped : ℕ) : Decidable (HasRoom n dropped) :=
  inferInstanceAs (Decidable (_ < _))

/-- The most places of `n / 10 ^ places` for which there is room. -/
def heldPlaces (n places : ℕ) : ℕ :=
  Nat.findGreatest (fun kept => HasRoom n (places - kept)) places

/-- The number `n / 10 ^ places`, rounded to the places for which there is room. -/
def held (n places : ℕ) : ℚ :=
  roundDiv n (10 ^ (places - heldPlaces n places)) / 10 ^ heldPlaces n places

theorem heldPlaces_le (n places : ℕ) : heldPlaces n places ≤ places :=
  Nat.findGreatest_le places

/-- If there is no room for what is held, it is too large without any places. -/
theorem limit_le_held {n places : ℕ} (full : ¬ HasRoom n (places - heldPlaces n places)) :
    (limit : ℚ) ≤ held n places := by
  have none : heldPlaces n places = 0 := by
    by_contra some
    exact full (Nat.findGreatest_of_ne_zero (P := fun kept => HasRoom n (places - kept)) rfl some)
  rw [held]
  rw [none] at full ⊢
  rw [pow_zero, div_one]
  exact_mod_cast Nat.not_lt.mp full

/-- Nothing is lost if only zeros are dropped. -/
theorem held_of_dvd {n places : ℕ} (zeros : 10 ^ (places - heldPlaces n places) ∣ n) :
    held n places = n / 10 ^ places := by
  have all : (10 : ℚ) ^ places =
      10 ^ (places - heldPlaces n places) * 10 ^ heldPlaces n places := by
    rw [← pow_add, Nat.sub_add_cancel (heldPlaces_le n places)]
  rw [held, roundDiv_of_dvd zeros, Nat.cast_div zeros (by positivity), all]
  push_cast
  rw [div_div]

/-- All places are held if there is room for all digits. -/
theorem heldPlaces_of_lt {n : ℕ} (places : ℕ) (small : n < limit) :
    HasRoom n 0 ∧ heldPlaces n places = places := by
  have room : HasRoom n 0 := by rwa [HasRoom, pow_zero, roundDiv_one]
  refine ⟨room, Nat.findGreatest_eq ?_⟩
  rwa [Nat.sub_self]

/-- Nothing is lost either if there is room for all digits. -/
theorem held_of_lt {n places : ℕ} (small : n < limit) : held n places = n / 10 ^ places := by
  refine held_of_dvd ?_
  rw [(heldPlaces_of_lt places small).2, Nat.sub_self, pow_zero]
  exact one_dvd n

/-- Digits are dropped one by one until there is room. -/
theorem fitFrom_eq (n : ℕ) {places total : ℕ} (le : places ≤ total) :
    fitFrom n (total - places) places =
      let kept := Nat.findGreatest (fun kept => HasRoom n (total - kept)) places
      if HasRoom n (total - kept) then some (roundDiv n (10 ^ (total - kept)), kept) else none := by
  induction places with
  | zero => rfl
  | succ places ih =>
      rw [Nat.findGreatest_succ, fitFrom]
      by_cases room : HasRoom n (total - (places + 1))
      · simp only [room, if_true]
        exact if_pos room
      · have next : total - (places + 1) + 1 = total - places := by omega
        simp only [room, if_false, next]
        exact (if_neg room).trans (ih (by omega))

/-- The digits that are counted as excess have to go. -/
theorem not_hasRoom_of_lt_excess {n dropped : ℕ}
    (few : dropped < excessDigits (if n = 0 then 0 else Nat.log2 n + 1)) : ¬ HasRoom n dropped := by
  have some : n ≠ 0 := by
    rintro rfl
    simp [excessDigits] at few
  rw [if_neg some] at few
  have long : 96 ≤ Nat.log2 n ∧ 256 * dropped ≤ 77 * (Nat.log2 n - 96) := by
    unfold excessDigits at few
    split at few <;> omega
  have power : 10 ^ dropped ≤ 2 ^ (Nat.log2 n - 96) :=
    pow_le_pow_of_ratio (p := 77) (q := 256) (by decide) (by decide) (by decide +kernel) long.2
  have large : limit * 10 ^ dropped ≤ n :=
    calc limit * 10 ^ dropped ≤ 2 ^ 96 * 2 ^ (Nat.log2 n - 96) := Nat.mul_le_mul_left _ power
      _ = 2 ^ Nat.log2 n := by rw [← Nat.pow_add, Nat.add_sub_cancel' long.1]
      _ ≤ n := Nat.log2_self_le some
  have whole : limit ≤ n / 10 ^ dropped := (Nat.le_div_iff_mul_le (by positivity)).mpr large
  have up : n / 10 ^ dropped ≤ roundDiv n (10 ^ dropped) := by
    simp only [roundDiv]
    split <;> omega
  exact Nat.not_lt.mpr (whole.trans up)

/-- A number with at most 28 places keeps the most places for which there is room. -/
theorem fit?_eq (negative : Bool) (n : ℕ) {places : ℕ} (few : places ≤ 28) :
    fit? negative n places =
      if HasRoom n (places - heldPlaces n places) then
        make? negative (roundDiv n (10 ^ (places - heldPlaces n places))) (heldPlaces n places)
      else none := by
  have excessive {kept : ℕ} :
      places - kept < excessDigits (if n = 0 then 0 else Nat.log2 n + 1) →
        ¬ HasRoom n (places - kept) := not_hasRoom_of_lt_excess
  simp only [fit?, maxPlaces, Nat.sub_eq_zero_of_le few, Nat.max_zero]
  generalize excessDigits (if n = 0 then 0 else Nat.log2 n + 1) = excess at excessive ⊢
  split
  · rename_i short
    rw [if_neg (excessive (by omega))]
  · rename_i long
    have same : heldPlaces n places =
        Nat.findGreatest (fun kept => HasRoom n (places - kept)) (places - excess) := by
      rw [heldPlaces, Nat.findGreatest_eq_iff]
      refine ⟨(Nat.findGreatest_le _).trans (Nat.sub_le _ _), Nat.findGreatest_of_ne_zero rfl,
        fun kept above le => ?_⟩
      rcases Nat.lt_or_ge (places - kept) excess with early | late
      · exact excessive early
      · exact Nat.findGreatest_is_greatest (P := fun kept => HasRoom n (places - kept)) above
          (by omega)
    have count : excess = places - (places - excess) := by omega
    have searched := fitFrom_eq n (Nat.sub_le places excess)
    rw [← count] at searched
    rw [searched, ← same]
    by_cases room : HasRoom n (places - heldPlaces n places)
    · simp only [room, if_true]
    · simp only [room, if_false]

theorem toRat_of_make? {negative : Bool} {coefficient places : ℕ} {d : Decimal}
    (made : make? negative coefficient places = some d) :
    d.toRat = if negative then -(coefficient / 10 ^ places : ℚ) else coefficient / 10 ^ places := by
  unfold make? fitting? at made
  split at made
  · obtain rfl := Option.some.inj made
    rw [toRat_eq, magnitude]
    by_cases none : coefficient = 0
    · simp [none]
    · simp [none]
  · cases made

variable {a b : Decimal}

/-- A product with at most 28 places keeps the most of them for which there is room. -/
theorem mul?_eq (few : a.places + b.places ≤ 28) (nonzero : a.isZero = false ∧ b.isZero = false) :
    a.mul? b =
      let n := a.coefficient * b.coefficient
      let places := a.places + b.places
      if HasRoom n (places - heldPlaces n places) then
        make? (a.negative != b.negative) (roundDiv n (10 ^ (places - heldPlaces n places)))
          (heldPlaces n places)
      else none := by
  have notTiny : ¬ maxPlaces + 19 < a.places + b.places := by
    simp only [maxPlaces]
    omega
  simp only [mul?, nonzero.1, nonzero.2, Bool.or_self, Bool.false_eq_true, if_false, notTiny,
    decide_false, Bool.and_false]
  exact fit?_eq _ _ few

/-- A product is held as far as there is room. -/
theorem exists_mul? (few : a.places + b.places ≤ 28)
    (room : HasRoom (a.coefficient * b.coefficient) (a.places + b.places -
      heldPlaces (a.coefficient * b.coefficient) (a.places + b.places))) :
    ∃ d, a.mul? b = some d ∧
      d.toRat =
        if a.negative != b.negative then
          -held (a.coefficient * b.coefficient) (a.places + b.places)
        else held (a.coefficient * b.coefficient) (a.places + b.places) := by
  by_cases zero : a.isZero = true ∨ b.isZero = true
  · have product : a.coefficient * b.coefficient = 0 := by
      simpa [isZero] using zero
    refine ⟨Decimal.zero, if_pos (by simpa using zero), ?_⟩
    rw [product, held_of_lt (by decide)]
    simp [toRat, signed, Decimal.zero]
  · simp only [not_or, Bool.not_eq_true] at zero
    have product := mul?_eq few zero
    have places := heldPlaces_le (a.coefficient * b.coefficient) (a.places + b.places)
    simp only [room, if_true] at product
    generalize made : make? _ _ _ = result at product
    obtain ⟨d, rfl⟩ : ∃ d, result = some d :=
      ⟨_, made.symm.trans (dif_pos ⟨room, places.trans few⟩)⟩
    exact ⟨d, product, toRat_of_make? made⟩

end Number.Decimal

end RowQuery
