import Mathlib.Algebra.Order.Field.Rat
import Mathlib.Tactic.FieldSimp
import Mathlib.Tactic.Linarith
import Mathlib.Tactic.Positivity
import Mathlib.Tactic.Ring
import RowQuery.Number.Decimal

/-!
# Exact quotients of decimals

A quotient that is a decimal is found, whatever the places of the operands: long division goes on
until nothing is left of the remainder, and it has room for all the digits on its way there.
-/

namespace RowQuery.Number.Decimal

/-! ## Long division -/

theorem room_spec {quotient : Nat} (small : quotient < limit) (count : Nat) :
    room quotient count ≤ count ∧ quotient * 10 ^ room quotient count < limit ∧
      ∀ j ≤ count, quotient * 10 ^ j < limit → j ≤ room quotient count := by
  induction count with
  | zero => exact ⟨Nat.le_refl _, by simpa [room] using small, fun j le _ => le⟩
  | succ count ih =>
      obtain ⟨le, fits, largest⟩ := ih
      rw [room]
      split
      · rename_i enough
        exact ⟨Nat.le_refl _, enough, fun j le _ => le⟩
      · rename_i full
        refine ⟨Nat.le_succ_of_le le, fits, fun j le smaller => ?_⟩
        rcases Nat.lt_or_eq_of_le le with less | rfl
        · exact largest j (Nat.lt_succ_iff.1 less) smaller
        · exact absurd smaller full

/-- Where long division stands on its way to `n / 10 ^ k`, with places counted from `-base` on. -/
structure Division (base divisor n k quotient remainder : Nat) (places : Int) : Prop where
  remainder_lt : remainder < divisor
  least : -base ≤ places
  most : places ≤ 28
  value : (quotient * divisor + remainder) * 10 ^ (k + base) =
    n * divisor * 10 ^ (places + base).toNat

namespace Division

variable {base divisor n k quotient remainder : Nat} {places : Int}

/-- Nothing is left once there are enough places. -/
theorem ended (stands : Division base divisor n k quotient remainder places)
    (enough : (k : Int) ≤ places) :
    remainder = 0 ∧ quotient = n * 10 ^ (places - k).toNat := by
  have split : (places + base).toNat = (places - k).toNat + (k + base) := by omega
  have value := stands.value
  rw [split, Nat.pow_add _ _ (k + base), ← Nat.mul_assoc] at value
  have whole : quotient * divisor + remainder = n * 10 ^ (places - k).toNat * divisor := by
    rw [Nat.eq_of_mul_eq_mul_right (Nat.pow_pos (by decide)) value]
    ring
  have positive : 0 < divisor := Nat.zero_lt_of_lt stands.remainder_lt
  have none : remainder = 0 := by
    have := congrArg (· % divisor) whole
    simpa [Nat.mul_comm _ divisor, Nat.mul_add_mod, Nat.mod_eq_of_lt stands.remainder_lt] using this
  rw [none, Nat.add_zero] at whole
  exact ⟨none, Nat.eq_of_mul_eq_mul_right positive whole⟩

/-- As long as places are missing the digits found are the first ones of `n`. -/
theorem le_of_short (stands : Division base divisor n k quotient remainder places) {j : Nat}
    (short : places + j ≤ k) : quotient * 10 ^ j ≤ n := by
  have least := stands.least
  have split : k + base = (k - places).toNat + (places + base).toNat := by omega
  have value := stands.value
  rw [split, Nat.pow_add, ← Nat.mul_assoc] at value
  have whole := Nat.eq_of_mul_eq_mul_right (Nat.pow_pos (by decide)) value
  have positive : 0 < divisor := Nat.zero_lt_of_lt stands.remainder_lt
  refine Nat.le_of_mul_le_mul_right ?_ positive
  rw [← whole]
  calc quotient * 10 ^ j * divisor = quotient * divisor * 10 ^ j := by ring
    _ ≤ (quotient * divisor + remainder) * 10 ^ (k - places).toNat :=
      Nat.mul_le_mul (Nat.le_add_right _ _) (Nat.pow_le_pow_right (by decide) (by omega))

/-- The value stays the same with more digits of the remainder taken in. -/
theorem extended (stands : Division base divisor n k quotient remainder places) {step : Nat}
    (most : places + step ≤ 28) :
    Division base divisor n k (quotient * 10 ^ step + remainder * 10 ^ step / divisor)
      (remainder * 10 ^ step % divisor) (places + step) where
  remainder_lt := Nat.mod_lt _ (Nat.zero_lt_of_lt stands.remainder_lt)
  least := by
    have := stands.least
    omega
  most := most
  value := by
    have least := stands.least
    have split : (places + step + base).toNat = (places + base).toNat + step := by omega
    have parts := Nat.div_add_mod (remainder * 10 ^ step) divisor
    have carried : (quotient * 10 ^ step + remainder * 10 ^ step / divisor) * divisor +
        remainder * 10 ^ step % divisor = (quotient * divisor + remainder) * 10 ^ step := by
      rw [Nat.add_mul, Nat.add_assoc, Nat.mul_comm (_ / divisor), parts]
      ring
    rw [carried, split, Nat.pow_add 10 _ step, ← Nat.mul_assoc, ← stands.value]
    ring

/-- There are as many places as are needed once nothing is left and none is missing. -/
theorem whole (stands : Division base divisor n k quotient 0 places) (enough : 0 ≤ places) :
    quotient * 10 ^ k = n * 10 ^ places.toNat := by
  have split : (places + base).toNat = places.toNat + base := by omega
  have value := stands.value
  rw [Nat.add_zero, split, Nat.pow_add, Nat.pow_add 10 _ base, ← Nat.mul_assoc, ← Nat.mul_assoc]
    at value
  have positive : 0 < divisor := Nat.zero_lt_of_lt stands.remainder_lt
  have cut := Nat.eq_of_mul_eq_mul_right (Nat.pow_pos (by decide)) value
  refine Nat.eq_of_mul_eq_mul_right positive ?_
  calc quotient * 10 ^ k * divisor = quotient * divisor * 10 ^ k := by ring
    _ = n * divisor * 10 ^ places.toNat := cut
    _ = n * 10 ^ places.toNat * divisor := by ring

/-- Places are missing as long as something is left. -/
theorem lt_of_remainder (stands : Division base divisor n k quotient remainder places)
    (left : remainder ≠ 0) : places < k :=
  Int.not_le.1 fun enough => left (stands.ended enough).1

/-- The number of digits that are taken in next. -/
def width (quotient remainder : Nat) (places : Int) : Nat :=
  if remainder = 0 then min 9 (-places).toNat else room quotient (min 9 (28 - places).toNat)

/-- There is room for the next digits, for all that are missing if these are fewer than nine. -/
theorem width_spec (stands : Division base divisor n k quotient remainder places)
    (quotient_lt : quotient < limit) (n_lt : n < limit) (k_le : k ≤ 28)
    (going : ¬(remainder = 0 ∧ 0 ≤ places)) :
    0 < width quotient remainder places ∧ width quotient remainder places ≤ 9 ∧
      places + width quotient remainder places ≤ 28 ∧
      quotient * 10 ^ width quotient remainder places < limit ∧
      (remainder ≠ 0 → width quotient remainder places < 9 →
        k ≤ places + width quotient remainder places) := by
  have most := stands.most
  unfold width
  split
  · rename_i none
    have short : places + (min 9 (-places).toNat : Nat) ≤ k := by omega
    exact ⟨by omega, by omega, by omega, Nat.lt_of_le_of_lt (stands.le_of_short short) n_lt,
      absurd none⟩
  · rename_i left
    have missing := stands.lt_of_remainder left
    obtain ⟨le, fits, largest⟩ := room_spec quotient_lt (min 9 (28 - places).toNat)
    have wide := largest (min 9 (k - places).toNat) (by omega)
      (Nat.lt_of_le_of_lt (stands.le_of_short (by omega)) n_lt)
    exact ⟨by omega, by omega, by omega, fits, fun _ _ => by omega⟩

end Division

/-- The result of a long division that is `n / 10 ^ k`. -/
def IsQuotient (n k : Nat) (result : Option (Nat × Int × Bool)) : Prop :=
  ∃ quotient places met, result = some (quotient, places, met) ∧ 0 ≤ places ∧ places ≤ 28 ∧
    quotient < limit ∧ quotient * 10 ^ k = n * 10 ^ places.toNat

/-- A quotient that has outgrown the range by a digit ends in a zero. -/
theorem isQuotient_shrink {base divisor n k quotient : Nat} {remainder : Nat} {places : Int}
    (stands : Division base divisor n k quotient remainder places) (n_lt : n < limit)
    (large : limit ≤ quotient) (bounded : quotient < 2 * limit) (met : Bool) :
    IsQuotient n k ((shrink? quotient places (remainder != 0)).map fun (q, p) => (q, p, met)) := by
  have beyond : (k : Int) < places := by
    refine Int.not_le.1 fun short => ?_
    have := stands.le_of_short (j := 0) (by omega)
    omega
  have most := stands.most
  obtain ⟨none, whole⟩ := stands.ended (Int.le_of_lt beyond)
  have split : (places - k).toNat = (places - 1 - k).toNat + 1 := by omega
  have tenfold : quotient = n * 10 ^ (places - 1 - k).toNat * 10 := by
    rw [whole, split, Nat.pow_succ, Nat.mul_assoc]
  have cut : quotient / 10 = n * 10 ^ (places - 1 - k).toNat := by omega
  have zero : quotient % 10 = 0 := by omega
  have shrunk : shrink? quotient places (remainder != 0) = some (quotient / 10, places - 1) := by
    simp only [shrink?, if_neg (show ¬places ≤ 0 by omega), zero]
    rfl
  have all : (places - 1).toNat = (places - 1 - k).toNat + k := by omega
  refine ⟨quotient / 10, places - 1, met, by rw [shrunk]; rfl, by omega, by omega, by omega, ?_⟩
  rw [cut, all, Nat.pow_add, Nat.mul_assoc]

/-- The next digits make the quotient larger by one digit at most. -/
theorem digits_lt {divisor quotient remainder step : Nat} (remainder_lt : remainder < divisor)
    (fits : quotient * 10 ^ step < limit) (atMost : step ≤ 9) :
    quotient * 10 ^ step + remainder * 10 ^ step / divisor < 2 * limit := by
  have digits : remainder * 10 ^ step / divisor < 10 ^ step :=
    Nat.div_lt_of_lt_mul (Nat.mul_lt_mul_of_pos_right remainder_lt (Nat.pow_pos (by decide)))
  have bounded : 10 ^ step ≤ 10 ^ 9 := Nat.pow_le_pow_right (by decide) atMost
  have large : 10 ^ 9 < limit := by decide
  omega

/-- Long division finds a quotient that is a decimal. -/
theorem isQuotient_divide {base divisor n k : Nat} (n_lt : n < limit) (k_le : k ≤ 28) (fuel : Nat) :
    ∀ {quotient remainder : Nat} {places : Int} (met : Bool),
      Division base divisor n k quotient remainder places → quotient < limit →
      28 - places < fuel → IsQuotient n k (divide divisor quotient remainder places met fuel) := by
  induction fuel with
  | zero =>
      intro quotient remainder places met stands _ enough
      have := stands.most
      omega
  | succ fuel ih =>
      intro quotient remainder places met stands quotient_lt enough
      have most := stands.most
      rw [divide]
      by_cases done : remainder = 0 ∧ 0 ≤ places
      · rw [if_pos done]
        rw [done.1] at stands
        exact ⟨quotient, places, met, rfl, done.2, most, quotient_lt, stands.whole done.2⟩
      · obtain ⟨positive, atMost, room, fits, missing⟩ :=
          stands.width_spec quotient_lt n_lt k_le done
        rw [if_neg done]
        dsimp only
        rw [← Division.width]
        generalize Division.width quotient remainder places = step at *
        have goes : ¬(remainder ≠ 0 ∧ step < 9 ∧ places + step < 0) := by
          rintro ⟨left, few, negative⟩
          have := missing left few
          omega
        have next := stands.extended room
        simp only [Nat.pow_eq]
        rw [if_neg goes, if_neg (Nat.ne_of_gt positive), if_neg (Nat.not_le.2 fits)]
        split
        · rename_i large
          exact isQuotient_shrink next n_lt large
            (digits_lt stands.remainder_lt fits atMost) _
        · rename_i small
          exact ih _ next (Nat.not_le.1 small) (by omega)

/-! ## Superfluous zeros -/

/-- The same value with fewer places. -/
def Shortens (long short : Nat × Nat) : Prop :=
  short.2 ≤ long.2 ∧ short.1 * 10 ^ (long.2 - short.2) = long.1

theorem Shortens.refl (q : Nat × Nat) : Shortens q q :=
  ⟨Nat.le_refl _, by rw [Nat.sub_self, Nat.pow_zero, Nat.mul_one]⟩

theorem Shortens.trans {q r s : Nat × Nat} (first : Shortens q r) (second : Shortens r s) :
    Shortens q s := by
  refine ⟨Nat.le_trans second.1 first.1, ?_⟩
  have places : q.2 - s.2 = (r.2 - s.2) + (q.2 - r.2) := by
    have := first.1
    have := second.1
    omega
  rw [places, Nat.pow_add, ← Nat.mul_assoc, second.2, first.2]

theorem shortens_of_dvd {quotient places count : Nat} (le : count ≤ places)
    (zeros : quotient % 10 ^ count = 0) :
    Shortens (quotient, places) (quotient / 10 ^ count, places - count) := by
  refine ⟨Nat.sub_le _ _, ?_⟩
  rw [show places - (places - count) = count by omega]
  exact Nat.div_mul_cancel (Nat.dvd_of_mod_eq_zero zeros)

theorem shortens_dropSome (bits count : Nat) (q : Nat × Nat) :
    Shortens q (dropSome bits count q) := by
  unfold dropSome
  split
  · rename_i drops
    exact shortens_of_dvd drops.2.1 drops.2.2
  · exact .refl q

theorem shortens_dropEights (fuel : Nat) : ∀ quotient places,
    Shortens (quotient, places) (dropEights quotient places fuel) := by
  induction fuel with
  | zero => exact fun quotient places => .refl _
  | succ fuel ih =>
      intro quotient places
      rw [dropEights]
      split
      · rename_i drops
        exact (shortens_of_dvd drops.2.1 drops.2.2).trans (ih _ _)
      · exact .refl _

theorem shortens_dropSuperfluous (quotient places : Nat) :
    Shortens (quotient, places) (dropSuperfluous quotient places) :=
  (shortens_dropEights 4 quotient places).trans ((shortens_dropSome 4 4 _).trans
    ((shortens_dropSome 2 2 _).trans (shortens_dropSome 1 1 _)))

/-! ## Values -/

/-- The number that a decimal stands for. -/
def toRat (d : Decimal) : ℚ :=
  d.signed / 10 ^ d.places

/-- The number without its sign. -/
def magnitude (d : Decimal) : ℚ :=
  d.coefficient / 10 ^ d.places

theorem toRat_eq (d : Decimal) : d.toRat = if d.negative then -d.magnitude else d.magnitude := by
  unfold toRat signed magnitude
  split
  · push_cast
    ring
  · push_cast
    ring

theorem magnitude_nonneg (d : Decimal) : 0 ≤ d.magnitude := by
  unfold magnitude
  positivity

theorem abs_toRat (d : Decimal) : |d.toRat| = d.magnitude := by
  rw [toRat_eq]
  split
  · rw [abs_neg, abs_of_nonneg d.magnitude_nonneg]
  · rw [abs_of_nonneg d.magnitude_nonneg]

theorem magnitude_eq_zero_iff {d : Decimal} : d.magnitude = 0 ↔ d.isZero = true := by
  unfold magnitude isZero
  simp

theorem toRat_eq_zero_iff {d : Decimal} : d.toRat = 0 ↔ d.isZero = true := by
  rw [← magnitude_eq_zero_iff, toRat_eq]
  split <;> simp

/-- The magnitudes are multiplied, and the signs are. -/
theorem of_toRat_mul {a b c : Decimal} (present : a.isZero = false)
    (exact : c.toRat * b.toRat = a.toRat) :
    c.magnitude * b.magnitude = a.magnitude ∧ c.negative = (a.negative != b.negative) := by
  have nonzero : a.magnitude ≠ 0 := by
    rw [Ne, magnitude_eq_zero_iff, present]
    exact Bool.false_ne_true
  have positive : 0 < a.magnitude := lt_of_le_of_ne a.magnitude_nonneg nonzero.symm
  have product : 0 ≤ c.magnitude * b.magnitude := mul_nonneg c.magnitude_nonneg b.magnitude_nonneg
  rw [toRat_eq, toRat_eq, toRat_eq] at exact
  cases signA : a.negative <;> cases signB : b.negative <;> cases signC : c.negative <;>
    simp only [signA, signB, signC, Bool.false_eq_true, if_true, if_false, neg_mul, mul_neg,
      neg_neg, neg_inj] at exact <;>
    first | exact ⟨exact, rfl⟩ | (exfalso; linarith)

/-- Division starts with the whole part of the quotient of the coefficients. -/
theorem division_of_magnitude {a b c : Decimal} (divisor : b.isZero = false)
    (magnitudes : c.magnitude * b.magnitude = a.magnitude) :
    Division 28 b.coefficient c.coefficient c.places (a.coefficient / b.coefficient)
      (a.coefficient % b.coefficient) ((a.places : Int) - b.places) := by
  have positive : 0 < b.coefficient := Nat.pos_of_ne_zero (by simpa [isZero] using divisor)
  have aPlaces := a.places_le
  have bPlaces := b.places_le
  refine ⟨Nat.mod_lt _ positive, by omega, by omega, ?_⟩
  have coefficients : a.coefficient * 10 ^ (c.places + b.places) =
      c.coefficient * b.coefficient * 10 ^ a.places := by
    unfold magnitude at magnitudes
    field_simp at magnitudes
    rw [← pow_add] at magnitudes
    have same : (a.coefficient : ℚ) * 10 ^ (c.places + b.places) =
        c.coefficient * b.coefficient * 10 ^ a.places := by linarith
    exact_mod_cast same
  rw [Nat.mul_comm (_ / _), Nat.div_add_mod]
  generalize base : (28 : Nat) = shift at *
  have split : a.places + shift = ((a.places : Int) - b.places + shift).toNat + b.places := by omega
  refine Nat.eq_of_mul_eq_mul_right (Nat.pow_pos (by decide) : 0 < 10 ^ b.places) ?_
  rw [Nat.mul_assoc (c.coefficient * _), ← Nat.pow_add, ← split, Nat.pow_add, Nat.pow_add,
    ← Nat.mul_assoc (c.coefficient * _), ← coefficients, Nat.pow_add]
  ring

/-- The decimal of a quotient has its magnitude, with the sign that is given. -/
theorem exists_make? {negative : Bool} {c : Decimal} {long short : Nat × Nat}
    (sign : c.negative = negative) (shortens : Shortens long short) (fits : long.1 < limit)
    (most : long.2 ≤ 28) (value : long.1 * 10 ^ c.places = c.coefficient * 10 ^ long.2) :
    ∃ q, make? negative short.1 short.2 = some q ∧ q.toRat = c.toRat := by
  obtain ⟨le, whole⟩ := shortens
  have small : short.1 ≤ long.1 := by
    rw [← whole]
    exact Nat.le_mul_of_pos_right _ (Nat.pow_pos (by decide))
  have places : long.2 = (long.2 - short.2) + short.2 := by omega
  have same : short.1 * 10 ^ c.places = c.coefficient * 10 ^ short.2 := by
    rw [← whole, places, Nat.pow_add, Nat.add_sub_cancel] at value
    refine Nat.eq_of_mul_eq_mul_right (Nat.pow_pos (by decide) : 0 < 10 ^ (long.2 - short.2)) ?_
    rw [Nat.mul_right_comm, value]
    ring
  have magnitude : (short.1 : ℚ) / 10 ^ short.2 = c.magnitude := by
    unfold Decimal.magnitude
    field_simp
    rw [mul_comm (10 ^ short.2 : ℚ)]
    exact_mod_cast same
  refine ⟨_, dif_pos ⟨Nat.lt_of_le_of_lt small fits, Nat.le_trans le most⟩, ?_⟩
  rw [toRat_eq, toRat_eq, sign]
  change (if negative && short.1 != 0 then -((short.1 : ℚ) / 10 ^ short.2)
    else (short.1 : ℚ) / 10 ^ short.2) = _
  by_cases none : short.1 = 0
  · rw [← magnitude, none]
    simp
  · rw [magnitude]
    simp [none]

/-- A quotient that is a decimal is found. -/
theorem exists_div? {a b c : Decimal} (divisor : b.isZero = false)
    (exact : c.toRat * b.toRat = a.toRat) : ∃ q, a.div? b = some q ∧ q.toRat = c.toRat := by
  unfold div?
  rw [if_neg (by simp [divisor])]
  by_cases none : a.isZero = true
  · rw [if_pos none]
    rw [toRat_eq_zero_iff.2 none, mul_eq_zero, toRat_eq_zero_iff (d := b), divisor] at exact
    have nothing : c.toRat = 0 := by simpa using exact
    exact ⟨zero, rfl, by rw [nothing, toRat_eq_zero_iff]; rfl⟩
  rw [if_neg none]
  obtain ⟨magnitudes, sign⟩ := of_toRat_mul (by simpa using none) exact
  have stands := division_of_magnitude divisor magnitudes
  obtain ⟨quotient, places, met, found, positive, most, fits, value⟩ :=
    isQuotient_divide c.coefficient_lt c.places_le 64 false stands
      (Nat.lt_of_le_of_lt (Nat.div_le_self _ _) a.coefficient_lt) (by have := stands.least; omega)
  rw [found]
  have shortens : Shortens (quotient, places.toNat)
      (if met then dropSuperfluous quotient places.toNat else (quotient, places.toNat)) := by
    split
    · exact shortens_dropSuperfluous _ _
    · exact .refl _
  exact exists_make? sign shortens fits (by omega) value

end RowQuery.Number.Decimal
