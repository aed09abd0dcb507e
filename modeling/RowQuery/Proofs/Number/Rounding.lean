import Mathlib
import RowQuery.Number.Binary64

/-!
# Rounding to doubles

Every number in the rounding interval of a finite double is rounded to it: however a positive
number is written, as a whole number times a power of two with what is cut off behind it, rounding
finds the double whose interval it lies in.
-/

namespace RowQuery.Number.Binary64

open Float.Model Float.Model.UnpackedFloat

/-! ## Rounding intervals -/

namespace Magnitude

/-- The magnitude of a double that is not zero. -/
structure Canonical (m : Magnitude) : Prop where
  pos : 0 < m.coefficient
  lt : m.coefficient < 2 ^ 53
  least : -1074 ≤ m.exponent
  most : m.exponent ≤ 971
  normal : m.exponent = -1074 ∨ 2 ^ 52 ≤ m.coefficient
  narrow : m.narrowBelow = true ↔ m.coefficient = 2 ^ 52 ∧ m.exponent ≠ -1074

/-- How far the rounding interval reaches down, in units of the last place. -/
def reach (m : Magnitude) : ℚ :=
  if m.narrowBelow then 1 / 4 else 1 / 2

/-- A number in the rounding interval; the ends belong to the interval of an even coefficient. -/
structure Covers (m : Magnitude) (q : ℚ) : Prop where
  low : m.coefficient - m.reach ≤ q / 2 ^ m.exponent
  high : q / 2 ^ m.exponent ≤ m.coefficient + 1 / 2
  inner : m.coefficient % 2 = 1 →
    m.coefficient - m.reach < q / 2 ^ m.exponent ∧ q / 2 ^ m.exponent < m.coefficient + 1 / 2

theorem reach_le (m : Magnitude) : m.reach ≤ 1 / 2 := by
  unfold reach
  split <;> norm_num

end Magnitude

/-! ## What is cut off -/

/-- The mantissa is a number without what stands behind the point; the two bits say how that
compares with one half. -/
def Represents (em : ExtendedMantissa) (x : ℚ) : Prop :=
  match em.roundBit, em.stickyBit with
  | false, false => x = em.mantissa
  | false, true => em.mantissa < x ∧ x < em.mantissa + 1 / 2
  | true, false => x = em.mantissa + 1 / 2
  | true, true => em.mantissa + 1 / 2 < x ∧ x < em.mantissa + 1

namespace Represents

variable {em : ExtendedMantissa} {x : ℚ}

theorem floor (represents : Represents em x) : em.mantissa ≤ x ∧ x < em.mantissa + 1 := by
  obtain ⟨mantissa, round, sticky⟩ := em
  cases round <;> cases sticky <;> simp only [Represents] at represents ⊢ <;>
    constructor <;> linarith

theorem shiftRightOne (represents : Represents em x) : Represents em.shiftRightOne (x / 2) := by
  obtain ⟨mantissa, round, sticky⟩ := em
  have parts : ((mantissa % 2 : ℕ) : ℚ) + 2 * ((mantissa / 2 : ℕ) : ℚ) = mantissa := by
    exact_mod_cast Nat.mod_add_div mantissa 2
  rcases Nat.mod_two_eq_zero_or_one mantissa with even | odd
  · have bit : (mantissa % 2 != 0) = false := by rw [even]; rfl
    rw [even] at parts
    push_cast at parts
    cases round <;> cases sticky <;>
      simp only [Represents, ExtendedMantissa.shiftRightOne, bit, Bool.or_self, Bool.or_true,
        Bool.or_false] at represents ⊢ <;>
      first | linarith | (constructor <;> linarith)
  · have bit : (mantissa % 2 != 0) = true := by rw [odd]; rfl
    rw [odd] at parts
    push_cast at parts
    cases round <;> cases sticky <;>
      simp only [Represents, ExtendedMantissa.shiftRightOne, bit, Bool.or_self, Bool.or_true,
        Bool.or_false] at represents ⊢ <;>
      first | linarith | (constructor <;> linarith)

theorem shiftRight (represents : Represents em x) (count : ℕ) :
    Represents (em >>> count) (x / 2 ^ count) := by
  change Represents (count.repeat ExtendedMantissa.shiftRightOne em) (x / 2 ^ count)
  induction count with
  | zero => simpa [Nat.repeat] using represents
  | succ count ih =>
      rw [Nat.repeat, pow_succ, ← div_div]
      exact ih.shiftRightOne

/-- A number is rounded to a whole number that is at most one half away, and from the middle to
the even one. -/
theorem roundedMantissa (represents : Represents em x) {c : ℕ} (low : c - 1 / 2 ≤ x)
    (high : x ≤ c + 1 / 2) (inner : c % 2 = 1 → c - 1 / 2 < x ∧ x < c + 1 / 2) :
    em.roundedMantissa = c := by
  have whole {n : ℕ} (above : (c : ℚ) < n + 1) (below : (n : ℚ) < c + 1) : n = c := by
    have above : c < n + 1 := by exact_mod_cast above
    have below : n < c + 1 := by exact_mod_cast below
    omega
  obtain ⟨mantissa, round, sticky⟩ := em
  cases round <;> cases sticky <;> simp only [Represents] at represents
  · change mantissa = c
    exact whole (by linarith) (by linarith)
  · change mantissa = c
    exact whole (by linarith) (by linarith)
  · -- the middle: the coefficient is one of the neighbours, and the even one
    change mantissa + mantissa % 2 = c
    have least : (mantissa : ℚ) < c + 1 := by linarith
    have most : (c : ℚ) < mantissa + 2 := by linarith
    have least : mantissa < c + 1 := by exact_mod_cast least
    have most : c < mantissa + 2 := by exact_mod_cast most
    have even : c % 2 ≠ 1 := by
      intro odd
      obtain ⟨low, high⟩ := inner odd
      have least : (mantissa : ℚ) < c := by linarith
      have most : (c : ℚ) < mantissa + 1 := by linarith
      have least : mantissa < c := by exact_mod_cast least
      have most : c < mantissa + 1 := by exact_mod_cast most
      omega
    omega
  · change mantissa + 1 = c
    exact whole (by push_cast; linarith) (by push_cast; linarith)

end Represents

/-! ## One rounding -/

theorem two_zpow_pos (e : ℤ) : (0 : ℚ) < 2 ^ e := zpow_pos (by norm_num) e

theorem targetExponent_eq (n : ℕ) (e : ℤ) :
    Format.binary64.targetExponent (totalExponent n e) = max (n.log2 + e - 52) (-1074) := by
  simp only [Format.targetExponent, totalExponent, Format.mantissaBits, Format.minExponent]
  norm_num
  omega

/-- Shifting to the target exponent, if that is not below the exponent. -/
theorem shiftToTargetExponent_eq {n : ℕ} {e : ℤ} (accuracy : Accuracy)
    (le : e ≤ max (n.log2 + e - 52) (-1074)) :
    shiftToTargetExponent Format.binary64 n e accuracy =
      (ExtendedMantissa.ofMantissaAndAccuracy n accuracy >>>
        (max (n.log2 + e - 52) (-1074) - e).toNat, max (n.log2 + e - 52) (-1074)) := by
  rw [shiftToTargetExponent, targetExponent_eq, shiftToExponent]
  congr 1
  omega

/-- A mantissa with a place for every bit is left as it is. -/
theorem shiftToTargetExponent_of_lt {n : ℕ} {e : ℤ} (lt : n < 2 ^ 53) (least : -1074 ≤ e) :
    shiftToTargetExponent Format.binary64 n e .exact = (⟨n, false, false⟩, e) := by
  have short : n.log2 ≤ 52 := by
    rcases Nat.eq_zero_or_pos n with rfl | pos
    · simp
    · exact Nat.lt_succ_iff.1 ((Nat.log2_lt pos.ne').2 lt)
  have none : (max ((n.log2 : ℤ) + e - 52) (-1074) - e).toNat = 0 := by omega
  rw [shiftToTargetExponent, targetExponent_eq, shiftToExponent, none]
  simp [ExtendedMantissa.ofMantissaAndAccuracy, HShiftRight.hShiftRight, Nat.repeat]

/-- A mantissa that rounding made one bit too long is shifted by it. -/
theorem shiftToTargetExponent_of_carry {e : ℤ} (least : -1074 ≤ e) :
    shiftToTargetExponent Format.binary64 (2 ^ 53) e .exact =
      (⟨2 ^ 52, false, false⟩, e + 1) := by
  have target : max (((2 ^ 53 : ℕ).log2 : ℤ) + e - 52) (-1074) = e + 1 := by
    rw [Nat.log2_two_pow]
    omega
  rw [shiftToTargetExponent_eq _ (by omega), target]
  simp [ExtendedMantissa.ofMantissaAndAccuracy, HShiftRight.hShiftRight, Nat.repeat,
    ExtendedMantissa.shiftRightOne]

/-- The number whose digits in base two begin with `n`, of unit `2 ^ e`. -/
theorem lt_zpow_log2 {q : ℚ} {n : ℕ} {e : ℤ} (above : q / 2 ^ e < n + 1) :
    q < 2 ^ (n.log2 + 1 + e) := by
  have digits : ((n + 1 : ℕ) : ℚ) ≤ 2 ^ (n.log2 + 1) := by
    exact_mod_cast Nat.succ_le_of_lt Nat.lt_log2_self
  calc q = q / 2 ^ e * 2 ^ e := (div_mul_cancel₀ q (two_zpow_pos e).ne').symm
    _ < (n + 1) * 2 ^ e := by gcongr
    _ ≤ 2 ^ (n.log2 + 1) * 2 ^ e := by gcongr; exact_mod_cast digits
    _ = 2 ^ ((n.log2 : ℤ) + 1 + e) := by
      rw [zpow_add₀ (by norm_num), zpow_add₀ (by norm_num), zpow_natCast, zpow_one, pow_succ]

theorem zpow_log2_le {q : ℚ} {n : ℕ} {e : ℤ} (pos : n ≠ 0) (below : n ≤ q / 2 ^ e) :
    2 ^ (n.log2 + e) ≤ q := by
  have digits : (2 : ℚ) ^ n.log2 ≤ n := by exact_mod_cast Nat.log2_self_le pos
  calc (2 : ℚ) ^ ((n.log2 : ℤ) + e) = 2 ^ n.log2 * 2 ^ e := by
        rw [zpow_add₀ (by norm_num), zpow_natCast]
    _ ≤ q / 2 ^ e * 2 ^ e := by gcongr; exact digits.trans below
    _ = q := div_mul_cancel₀ q (two_zpow_pos e).ne'

/-- A number that is rounded to a double with a full coefficient is not much smaller than that. -/
theorem Magnitude.Covers.lt {m : Magnitude} {q : ℚ} (covers : m.Covers q)
    (full : 2 ^ 52 ≤ m.coefficient) : 2 ^ (51 + m.exponent) < q := by
  have full : (2 ^ 52 : ℚ) ≤ m.coefficient := by exact_mod_cast full
  rw [zpow_add₀ (by norm_num), ← lt_div_iff₀ (two_zpow_pos _)]
  calc (2 ^ (51 : ℤ) : ℚ) < 2 ^ 52 - 1 / 2 := by norm_num
    _ ≤ m.coefficient - m.reach := sub_le_sub full m.reach_le
    _ ≤ q / 2 ^ m.exponent := covers.low

theorem Magnitude.Covers.gt {m : Magnitude} (canonical : m.Canonical) {q : ℚ}
    (covers : m.Covers q) : q < 2 ^ (53 + m.exponent) := by
  have short : (m.coefficient + 1 : ℚ) ≤ 2 ^ 53 := by exact_mod_cast canonical.lt
  rw [zpow_add₀ (by norm_num), ← div_lt_iff₀ (two_zpow_pos _)]
  calc q / 2 ^ m.exponent ≤ m.coefficient + 1 / 2 := covers.high
    _ < m.coefficient + 1 := by norm_num
    _ ≤ 2 ^ (53 : ℤ) := short

theorem zpow_two_lt {a b : ℤ} (lt : (2 : ℚ) ^ a < 2 ^ b) : a < b :=
  (zpow_lt_zpow_iff_right₀ (by norm_num)).1 lt

/-- The binary exponents of a number and of the double that it is rounded to are the same, unless
the number lies just below the least coefficient. -/
theorem target_of_covers {m : Magnitude} (canonical : m.Canonical) {q : ℚ} (covers : m.Covers q)
    {n : ℕ} {e : ℤ} (below : n ≤ q / 2 ^ e) (above : q / 2 ^ e < n + 1)
    (fine : e ≤ -1074 ∨ 52 ≤ n.log2) :
    max (n.log2 + e - 52) (-1074) = m.exponent ∨
      max (n.log2 + e - 52) (-1074) = m.exponent - 1 ∧ m.coefficient = 2 ^ 52 ∧
        m.narrowBelow = true ∧ q / 2 ^ m.exponent < 2 ^ 52 := by
  have upper := lt_zpow_log2 above
  have lower (nonzero : n ≠ 0) : n.log2 + e < 53 + m.exponent :=
    zpow_two_lt (lt_of_le_of_lt (zpow_log2_le nonzero below) (covers.gt canonical))
  by_cases least : m.exponent = -1074
  · left
    rcases eq_or_ne n 0 with rfl | nonzero
    · rw [Nat.log2_zero] at fine ⊢
      omega
    · have := lower nonzero
      omega
  · have full := canonical.normal.resolve_left least
    have low := zpow_two_lt ((covers.lt full).trans upper)
    have above := canonical.least
    have nonzero : n ≠ 0 := by
      rintro rfl
      rw [Nat.log2_zero] at fine low
      omega
    have high := lower nonzero
    rcases eq_or_ne (n.log2 + e - 52) m.exponent with same | differs
    · left
      omega
    · have next : (n.log2 : ℤ) + 1 + e = 52 + m.exponent := by omega
      have small : q / 2 ^ m.exponent < 2 ^ 52 := by
        rw [div_lt_iff₀ (two_zpow_pos _), ← zpow_natCast, ← zpow_add₀ (by norm_num)]
        rwa [next] at upper
      have coefficient : m.coefficient = 2 ^ 52 := by
        have : (m.coefficient : ℚ) < (2 ^ 52 + 1 : ℕ) := by
          push_cast
          linarith [covers.low, m.reach_le]
        have : m.coefficient < 2 ^ 52 + 1 := by exact_mod_cast this
        omega
      exact .inr ⟨by omega, coefficient, canonical.narrow.2 ⟨coefficient, least⟩, small⟩

/-- Rounding finds the double whose interval a number lies in. -/
theorem roundWithAccuracy_eq {m : Magnitude} (canonical : m.Canonical) {q : ℚ} (covers : m.Covers q)
    {n : ℕ} {e : ℤ} {accuracy : Accuracy}
    (represents : Represents (.ofMantissaAndAccuracy n accuracy) (q / 2 ^ e))
    (fine : e ≤ -1074 ∨ 2 ^ (52 + e) ≤ q) (sign : Sign) :
    roundWithAccuracy Format.binary64 sign n e accuracy =
      .finite sign m.coefficient m.exponent canonical.pos := by
  have mantissa : (ExtendedMantissa.ofMantissaAndAccuracy n accuracy).mantissa = n := by
    cases accuracy with
    | exact => rfl
    | inexact order => cases order <;> rfl
  obtain ⟨below, above⟩ := represents.floor
  rw [mantissa] at below above
  have fine : e ≤ -1074 ∨ 52 ≤ n.log2 := by
    refine fine.imp_right fun large => ?_
    have := zpow_two_lt (lt_of_le_of_lt large (lt_zpow_log2 above))
    omega
  have shifted : Represents (ExtendedMantissa.ofMantissaAndAccuracy n accuracy >>>
      (max (n.log2 + e - 52) (-1074) - e).toNat) (q / 2 ^ max ((n.log2 : ℤ) + e - 52) (-1074)) := by
    have exponent : max ((n.log2 : ℤ) + e - 52) (-1074) =
        e + ((max ((n.log2 : ℤ) + e - 52) (-1074) - e).toNat : ℤ) := by omega
    have := represents.shiftRight (max ((n.log2 : ℤ) + e - 52) (-1074) - e).toNat
    rwa [div_div, ← zpow_natCast, ← zpow_add₀ (by norm_num), ← exponent] at this
  unfold roundWithAccuracy
  rw [shiftToTargetExponent_eq accuracy (by omega)]
  generalize ExtendedMantissa.ofMantissaAndAccuracy n accuracy >>>
    (max (n.log2 + e - 52) (-1074) - e).toNat = em at shifted
  dsimp only
  rcases target_of_covers canonical covers below above fine with same | ⟨before, full, narrow, less⟩
  · rw [same] at shifted ⊢
    have reach := m.reach_le
    have rounded : em.roundedMantissa = m.coefficient :=
      shifted.roundedMantissa (by linarith [covers.low]) covers.high
        fun odd => ⟨by linarith [(covers.inner odd).1], (covers.inner odd).2⟩
    rw [rounded, shiftToTargetExponent_of_lt canonical.lt canonical.least]
    exact dif_neg canonical.pos.ne'
  · rw [before] at shifted ⊢
    have reach : m.reach = 1 / 4 := if_pos narrow
    have twice : q / 2 ^ (m.exponent - 1) = 2 * (q / 2 ^ m.exponent) := by
      rw [zpow_sub₀ (by norm_num), zpow_one]
      ring
    have low := covers.low
    rw [full, reach] at low
    have rounded : em.roundedMantissa = 2 ^ 53 := by
      refine shifted.roundedMantissa (c := 2 ^ 53) ?_ ?_ fun odd => absurd odd (by decide)
      · rw [twice]
        push_cast at low ⊢
        linarith
      · rw [twice]
        push_cast
        linarith
    have least : -1074 ≤ m.exponent - 1 := by omega
    rw [rounded, shiftToTargetExponent_of_carry least]
    simp only [sub_add_cancel, full]
    rfl

/-! ## Products and quotients -/

theorem mul_eq {m : Magnitude} (canonical : m.Canonical) {a b : ℕ} {e f : ℤ} (posA : 0 < a)
    (posB : 0 < b) (covers : m.Covers (a * 2 ^ e * (b * 2 ^ f))) (fine : 2 ^ 52 ≤ a * b) :
    UnpackedFloat.mul Format.binary64 (.finite .positive a e posA) (.finite .positive b f posB) =
      .finite .positive m.coefficient m.exponent canonical.pos := by
  have value : (a : ℚ) * 2 ^ e * (b * 2 ^ f) = (a * b : ℕ) * 2 ^ (e + f) := by
    rw [zpow_add₀ (by norm_num)]
    push_cast
    ring
  rw [value] at covers
  refine roundWithAccuracy_eq canonical covers ?_ (.inr ?_) _
  · exact mul_div_cancel_right₀ _ (two_zpow_pos _).ne'
  · rw [zpow_add₀ (by norm_num)]
    gcongr
    exact_mod_cast fine

/-- The whole quotient, with the remainder in the two bits. -/
theorem represents_quotient (n : ℕ) {d : ℕ} (pos : 0 < d) :
    Represents (.ofMantissaAndAccuracy (n / d) (accuracyOfFraction (n % d) d)) (n / d : ℚ) := by
  have positive : (0 : ℚ) < d := by exact_mod_cast pos
  have split : (n : ℚ) / d = (n / d : ℕ) + (n % d : ℕ) / d := by
    rw [← sub_eq_iff_eq_add', div_sub' positive.ne', div_left_inj' positive.ne', sub_eq_iff_eq_add]
    exact_mod_cast (Nat.mod_add_div n d).symm
  have less : ((n % d : ℕ) : ℚ) < d := by exact_mod_cast Nat.mod_lt n pos
  rw [split]
  generalize n / d = quotient, n % d = remainder at less
  unfold accuracyOfFraction
  split
  · rename_i zero
    simp [zero, ExtendedMantissa.ofMantissaAndAccuracy, Represents]
  · rename_i some
    have some : (0 : ℚ) < remainder := by exact_mod_cast Nat.pos_of_ne_zero some
    have above : 0 < (remainder : ℚ) / d := div_pos some positive
    have below : (remainder : ℚ) / d < 1 := (div_lt_one positive).2 less
    rcases lt_trichotomy (2 * remainder) d with lt | eq | gt
    · rw [Nat.compare_eq_lt.2 lt]
      have lt : (2 * remainder : ℚ) < d := by exact_mod_cast lt
      have half : (remainder : ℚ) / d < 1 / 2 := by
        rw [div_lt_div_iff₀ positive (by norm_num)]
        linarith
      change (quotient : ℚ) < quotient + remainder / d ∧
        (quotient + remainder / d : ℚ) < quotient + 1 / 2
      constructor <;> linarith
    · rw [Nat.compare_eq_eq.2 eq]
      have eq : (2 * remainder : ℚ) = d := by exact_mod_cast eq
      have half : (remainder : ℚ) / d = 1 / 2 := by
        rw [div_eq_div_iff positive.ne' (by norm_num)]
        linarith
      exact congrArg ((quotient : ℚ) + ·) half
    · rw [Nat.compare_eq_gt.2 gt]
      have gt : (d : ℚ) < 2 * remainder := by exact_mod_cast gt
      have half : 1 / 2 < (remainder : ℚ) / d := by
        rw [div_lt_div_iff₀ (by norm_num) positive]
        linarith
      change (quotient + 1 / 2 : ℚ) < quotient + remainder / d ∧
        (quotient + remainder / d : ℚ) < quotient + 1
      constructor <;> linarith

theorem div_eq {m : Magnitude} (canonical : m.Canonical) {a b : ℕ} {e f : ℤ} (posA : 0 < a)
    (posB : 0 < b) (covers : m.Covers (a * 2 ^ e / (b * 2 ^ f))) :
    UnpackedFloat.div Format.binary64 (.finite .positive a e posA) (.finite .positive b f posB) =
      .finite .positive m.coefficient m.exponent canonical.pos := by
  unfold UnpackedFloat.div divCore
  dsimp only
  generalize place : min (e - f) (Format.binary64.targetExponent
    (totalExponent a e - totalExponent b f)) = least
  have target : Format.binary64.targetExponent (totalExponent a e - totalExponent b f) =
      max ((a.log2 + e) - (b.log2 + f) - 53) (-1074) := by
    simp only [Format.targetExponent, totalExponent, Format.mantissaBits, Format.minExponent]
    norm_num
    omega
  rw [target] at place
  have scaled : (a * 2 ^ e / (b * 2 ^ f) : ℚ) / 2 ^ least =
      (a <<< (e - f - least).toNat : ℕ) / b := by
    have shift : e = ((e - f - least).toNat : ℤ) + (f + least) := by omega
    have := (two_zpow_pos f).ne'
    have := (two_zpow_pos least).ne'
    have : (b : ℚ) ≠ 0 := by exact_mod_cast posB.ne'
    rw [Nat.shiftLeft_eq, Nat.cast_mul, Nat.cast_pow, ← zpow_natCast]
    nth_rewrite 1 [shift]
    rw [zpow_add₀ (by norm_num), zpow_add₀ (by norm_num)]
    push_cast
    field_simp
  refine roundWithAccuracy_eq canonical covers ?_ ?_ _
  · rw [scaled]
    exact represents_quotient _ posB
  · by_cases tiny : least ≤ -1074
    · exact .inl tiny
    · have numerator : (2 : ℚ) ^ ((a.log2 : ℤ) + e) ≤ a * 2 ^ e :=
        zpow_log2_le posA.ne' (mul_div_cancel_right₀ _ (two_zpow_pos e).ne').ge
      have denominator : (b * 2 ^ f : ℚ) < 2 ^ ((b.log2 : ℤ) + 1 + f) := by
        refine lt_zpow_log2 ?_
        rw [mul_div_cancel_right₀ _ (two_zpow_pos f).ne']
        norm_num
      have positive : (0 : ℚ) < b * 2 ^ f :=
        mul_pos (by exact_mod_cast posB) (two_zpow_pos f)
      right
      rw [le_div_iff₀ positive]
      calc (2 : ℚ) ^ (52 + least) * (b * 2 ^ f)
          ≤ 2 ^ (52 + least) * 2 ^ ((b.log2 : ℤ) + 1 + f) := by
            gcongr
        _ = 2 ^ (52 + least + ((b.log2 : ℤ) + 1 + f)) := (zpow_add₀ (by norm_num) _ _).symm
        _ ≤ 2 ^ ((a.log2 : ℤ) + e) := zpow_le_zpow_right₀ (by norm_num) (by omega)
        _ ≤ a * 2 ^ e := numerator

end RowQuery.Number.Binary64
