import RowQuery.Proofs.Number.Reading
import RowQuery.Proofs.Number.Rounding

/-!
# The nearest double

A finite double is the magnitude that its bits stand for, with a sign.  A decimal in the rounding
interval of a double is read as that double, whether its digits and its power of ten are doubles
themselves or not.
-/

namespace RowQuery.Number.Binary64

open Float.Model Float.Model.UnpackedFloat

/-! ## Doubles as magnitudes -/

/-- The hidden bit in front of a fraction. -/
theorem toNat_hidden (fraction : BitVec 52) :
    (1#1 ++ fraction).toNat = hiddenBit + fraction.toNat := by
  have hidden := Nat.two_pow_add_eq_or_of_lt fraction.isLt 1
  rw [Nat.mul_one] at hidden
  rw [BitVec.toNat_append]
  change 1 <<< 52 ||| _ = _
  rw [Nat.one_shiftLeft]
  exact hidden.symm

/-- Bits with an exponent field between the first and the last stand for a full coefficient. -/
theorem unpack_normal {c k : ℕ} (pos : 0 < c) (full : 2 ^ 52 ≤ c) (lt : c < 2 ^ 53)
    (first : 0 < k) (last : k < 2047) (sign : Sign) :
    UnpackedFloat.unpack Format.binary64
        (packComponents Format.binary64 sign (BitVec.ofNat 11 k) (BitVec.ofNat 52 c)) =
      .finite sign c (k - 1075) pos := by
  have exponent : (BitVec.ofNat 11 k).toNat = k := by
    rw [BitVec.toNat_ofNat, Nat.mod_eq_of_lt (by omega)]
  have nonzero : BitVec.ofNat 11 k ≠ 0#11 := by
    intro zero
    have := congrArg BitVec.toNat zero
    rw [exponent] at this
    change k = 0 at this
    omega
  have notLast : BitVec.ofNat 11 k ≠ -1#11 := by
    intro same
    have := congrArg BitVec.toNat same
    rw [exponent] at this
    change k = 2047 at this
    omega
  have coefficient : (1#1 ++ BitVec.ofNat 52 c).toNat = c := by
    rw [toNat_hidden, BitVec.toNat_ofNat, hiddenBit]
    omega
  unfold UnpackedFloat.unpack
  simp only [unpackMantissa_packComponents, unpackExponent_packComponents,
    unpackSign_packComponents, Sign.ofBitVec_toBitVec, if_neg nonzero, if_neg notLast,
    coefficient, exponent]
  rfl

/-- Bits with the exponent field zero stand for a small coefficient. -/
theorem unpack_subnormal {c : ℕ} (pos : 0 < c) (lt : c < 2 ^ 52) (sign : Sign) :
    UnpackedFloat.unpack Format.binary64
        (packComponents Format.binary64 sign 0#11 (BitVec.ofNat 52 c)) =
      .finite sign c (-1074) pos := by
  have coefficient : (BitVec.ofNat 52 c).toNat = c := by
    rw [BitVec.toNat_ofNat]
    omega
  have some : BitVec.ofNat 52 c ≠ 0#52 := by
    intro zero
    have := congrArg BitVec.toNat zero
    rw [coefficient] at this
    change c = 0 at this
    omega
  unfold UnpackedFloat.unpack
  simp only [unpackMantissa_packComponents, unpackExponent_packComponents,
    unpackSign_packComponents, Sign.ofBitVec_toBitVec, coefficient, some]
  rw [if_neg (by decide), if_pos trivial, dif_neg not_false]
  rfl

/-- A magnitude is packed into bits without loss. -/
theorem unpack_pack {m : Magnitude} (canonical : m.Canonical) (sign : Sign) :
    (Float.Model.pack (.finite sign m.coefficient m.exponent canonical.pos)).unpack =
      .finite sign m.coefficient m.exponent canonical.pos := by
  obtain ⟨c, e, narrow⟩ := m
  obtain ⟨pos, lt, least, most, normal, -⟩ := canonical
  dsimp only at pos lt least most normal ⊢
  have biased : ((e + (1023 : ℕ) + (52 : ℕ)).toNat : ℤ) = e + 1075 := by omega
  generalize place : (e + (1023 : ℕ) + (52 : ℕ)).toNat = k at biased
  have room : ¬ 2 ^ 11 ≤ k + 1 := by omega
  have packed : UnpackedFloat.pack Format.binary64 (.finite sign c e pos) =
      if c.log2 + 1 = 53 then
        packComponents Format.binary64 sign (BitVec.ofNat 11 k) (BitVec.ofNat 52 c)
      else packComponents Format.binary64 sign 0#11 (BitVec.ofNat 52 c) := by
    subst place
    exact if_neg room
  change UnpackedFloat.unpack Format.binary64 (UnpackedFloat.pack Format.binary64 _) = _
  rw [packed]
  by_cases full : 2 ^ 52 ≤ c
  · have bits : c.log2 + 1 = 53 := by
      rw [(Nat.log2_eq_iff pos.ne').2 ⟨full, lt⟩]
    rw [if_pos bits, unpack_normal pos full lt (by omega) (by omega), biased]
    congr 1
    omega
  · have bits : c.log2 + 1 ≠ 53 := by
      have := (Nat.log2_lt pos.ne').2 (Nat.lt_of_not_le full)
      omega
    rw [if_neg bits, unpack_subnormal pos (Nat.lt_of_not_le full)]
    congr 1
    omega

theorem toNat_unpackExponent (b : BitVec 64) :
    (@unpackExponent Format.binary64 b).toNat = b.toNat / hiddenBit % 0x800 := by
  rw [unpackExponent_def, BitVec.extractLsb'_toNat, Nat.shiftRight_eq_div_pow]
  rfl

theorem toNat_unpackMantissa (b : BitVec 64) :
    (@unpackMantissa Format.binary64 b).toNat = b.toNat % hiddenBit := by
  rw [unpackMantissa_def, BitVec.extractLsb'_toNat, Nat.shiftRight_zero]
  rfl

/-- The sign that the first bit of a double stands for. -/
def sign (x : Float) : Sign :=
  if isNegative x then .negative else .positive

theorem ofBitVec_unpackSign (x : Float) :
    Sign.ofBitVec (@unpackSign Format.binary64 x.toBits.toBitVec) = sign x := by
  have bit : (@unpackSign Format.binary64 x.toBits.toBitVec).toNat =
      x.toBits.toNat / 2 ^ 63 % 2 := by
    rw [unpackSign_def, BitVec.extractLsb'_toNat, Nat.shiftRight_eq_div_pow]
    rfl
  have bounded : x.toBits.toNat < 2 ^ 64 := x.toBits.toNat_lt
  unfold Sign.ofBitVec sign isNegative
  simp only [← BitVec.toNat_inj, bit, decide_eq_true_eq]
  change (if x.toBits.toNat / 2 ^ 63 % 2 = 0 then _ else _) = _
  split <;> split <;> first | rfl | omega

/-- The exponent field of a finite double is not the last one. -/
theorem exponent_ne {x : Float} (number : x.isNaN = false) (finite : x.isInf = false) :
    @unpackExponent Format.binary64 x.toBits.toBitVec ≠ -1#11 := by
  intro last
  have number : (UnpackedFloat.unpack Format.binary64 x.toBits.toBitVec).isNaN = false := number
  have finite : (UnpackedFloat.unpack Format.binary64 x.toBits.toBitVec).isInf = false := finite
  unfold UnpackedFloat.unpack at number finite
  simp only [last, if_true] at number finite
  split at number
  · rename_i none
    rw [if_pos none] at finite
    cases finite
  · cases number

theorem biased_lt {x : Float} (number : x.isNaN = false) (finite : x.isInf = false) :
    x.toBits.toNat / hiddenBit % 0x800 < 0x7FF := by
  have field := toNat_unpackExponent x.toBits.toBitVec
  have bounded : x.toBits.toBitVec.toNat / hiddenBit % 0x800 < 0x800 := Nat.mod_lt _ (by decide)
  have notLast : x.toBits.toBitVec.toNat / hiddenBit % 0x800 ≠ 0x7FF := fun last =>
    exponent_ne number finite (BitVec.eq_of_toNat_eq (field.trans last))
  change x.toBits.toBitVec.toNat / hiddenBit % 0x800 < 0x7FF
  omega

/-- A finite double that is not zero has a canonical magnitude. -/
theorem canonical_magnitude {x : Float} (number : x.isNaN = false) (finite : x.isInf = false)
    (nonzero : (magnitude x).coefficient ≠ 0) : (magnitude x).Canonical := by
  have biased := biased_lt number finite
  have fraction : x.toBits.toNat % hiddenBit < hiddenBit := Nat.mod_lt _ (by decide)
  unfold magnitude at nonzero ⊢
  dsimp only at nonzero ⊢
  generalize x.toBits.toNat / hiddenBit % 0x800 = e at biased nonzero ⊢
  generalize x.toBits.toNat % hiddenBit = c at fraction nonzero ⊢
  simp only [hiddenBit] at fraction nonzero ⊢
  split at nonzero
  · rename_i subnormal
    rw [if_pos subnormal]
    constructor <;> simp at * <;> omega
  · rename_i normal
    rw [if_neg normal]
    constructor <;> simp at * <;> omega

/-- What a finite double is. -/
theorem unpack_eq {x : Float} (number : x.isNaN = false) (finite : x.isInf = false) :
    x.toModel.unpack =
      if nonzero : (magnitude x).coefficient = 0 then .zero (sign x)
      else .finite (sign x) (magnitude x).coefficient (magnitude x).exponent
        (Nat.pos_of_ne_zero nonzero) := by
  have exponent := toNat_unpackExponent x.toBits.toBitVec
  have fraction := toNat_unpackMantissa x.toBits.toBitVec
  have notLast := exponent_ne number finite
  change UnpackedFloat.unpack Format.binary64 x.toBits.toBitVec = _
  unfold UnpackedFloat.unpack
  simp only [ofBitVec_unpackSign, if_neg notLast]
  generalize_proofs some one
  generalize @unpackExponent Format.binary64 x.toBits.toBitVec = e at *
  generalize @unpackMantissa Format.binary64 x.toBits.toBitVec = c at *
  change e.toNat = x.toBits.toNat / hiddenBit % 0x800 at exponent
  change c.toNat = x.toBits.toNat % hiddenBit at fraction
  have zeroE : e = 0#11 ↔ x.toBits.toNat / hiddenBit % 0x800 = 0 := by
    rw [← BitVec.toNat_inj, exponent]
    rfl
  have zeroC : c = 0#52 ↔ x.toBits.toNat % hiddenBit = 0 := by
    rw [← BitVec.toNat_inj, fraction]
    rfl
  have append := toNat_hidden c
  unfold magnitude
  dsimp only
  by_cases subnormal : e = 0#11
  · have biased := zeroE.1 subnormal
    rw [if_pos subnormal]
    simp only [biased, if_true]
    by_cases zero : c = 0#52
    · rw [dif_pos zero, dif_pos (zeroC.1 zero)]
    · rw [dif_neg zero, dif_neg (mt zeroC.2 zero)]
      simp only [subnormal, fraction]
      rfl
  · have biased := mt zeroE.2 subnormal
    rw [if_neg subnormal]
    simp only [biased, if_false]
    have positive : hiddenBit + x.toBits.toNat % hiddenBit ≠ 0 := by
      simp [hiddenBit]
    rw [dif_neg positive]
    simp only [append, fraction, exponent]
    rfl

/-- A double is made of its parts. -/
theorem ofModel_pack_unpack (x : Float) : Float.ofModel (.pack x.toModel.unpack) = x :=
  Float.ofBits_toBits x

/-! ## Decimals -/

/-- The sizes of numbers that are rounded to doubles other than zero. -/
theorem Magnitude.Covers.size {m : Magnitude} (canonical : m.Canonical) {q : ℚ}
    (covers : m.Covers q) : 2 ^ (-1075 : ℤ) ≤ q ∧ q < 2 ^ (1024 : ℤ) := by
  constructor
  · have one : (1 : ℚ) ≤ m.coefficient := by exact_mod_cast canonical.pos
    have half : (1 / 2 : ℚ) ≤ q / 2 ^ m.exponent := by
      linarith [covers.low, m.reach_le]
    rw [le_div_iff₀ (two_zpow_pos _)] at half
    calc (2 : ℚ) ^ (-1075 : ℤ) = 1 / 2 * 2 ^ (-1074 : ℤ) := by
          rw [show (-1075 : ℤ) = -1 + -1074 from rfl, zpow_add₀ (by norm_num)]
          norm_num
      _ ≤ 1 / 2 * 2 ^ m.exponent := by
          gcongr
          · norm_num
          · exact canonical.least
      _ ≤ q := half
  · have most := canonical.most
    exact (covers.gt canonical).trans_le (zpow_le_zpow_right₀ (by norm_num) (by omega))

/-- Beyond these exponents a decimal counts as zero or as infinite; one among the doubles stays
within them. -/
theorem exponent_bounds {d : ℕ} (pos : d ≠ 0) {e : ℤ}
    (least : (2 : ℚ) ^ (-1075 : ℤ) ≤ d * 10 ^ e) (most : (d * 10 ^ e : ℚ) < 2 ^ (1024 : ℤ)) :
    -((2 ^ 11 : ℤ) + d.log2) ≤ e ∧ e ≤ 2 ^ 11 := by
  have one : (1 : ℚ) ≤ d := by exact_mod_cast Nat.pos_of_ne_zero pos
  constructor
  · by_contra! tiny
    have smaller : (10 : ℚ) ^ e ≤ 2 ^ e := by
      obtain ⟨k, rfl⟩ : ∃ k : ℕ, e = -k := ⟨(-e).toNat, by omega⟩
      rw [zpow_neg, zpow_neg, zpow_natCast, zpow_natCast]
      exact inv_anti₀ (by positivity) (pow_le_pow_left₀ (by norm_num) (by norm_num) k)
    have below : (d * 10 ^ e : ℚ) / 2 ^ e < d + 1 := by
      rw [div_lt_iff₀ (two_zpow_pos e)]
      have := two_zpow_pos e
      nlinarith
    have := zpow_two_lt (least.trans_lt (lt_zpow_log2 below))
    omega
  · by_contra! huge
    have : (2 : ℚ) ^ (1024 : ℤ) < 2 ^ (1024 : ℤ) := calc
      (2 : ℚ) ^ (1024 : ℤ) ≤ 2 ^ e := zpow_le_zpow_right₀ (by norm_num) (by omega)
      _ ≤ 10 ^ e := zpow_le_zpow_left₀ (by omega) (by norm_num) (by norm_num)
      _ ≤ d * 10 ^ e := le_mul_of_one_le_left (zpow_pos (by norm_num) e).le one
      _ < 2 ^ (1024 : ℤ) := most
    exact lt_irrefl _ this

/-- The nearest double in the model of doubles. -/
theorem ofScientific_unpacked {m : Magnitude} (canonical : m.Canonical) {d : ℕ} (pos : d ≠ 0)
    {e : ℤ} (covers : m.Covers (d * 10 ^ e)) :
    UnpackedFloat.ofScientific Format.binary64 d e =
      .finite .positive m.coefficient m.exponent canonical.pos := by
  obtain ⟨least, most⟩ := covers.size canonical
  obtain ⟨notTiny, notHuge⟩ := exponent_bounds pos least most
  unfold UnpackedFloat.ofScientific
  rw [dif_neg pos, if_neg notHuge.not_gt, if_neg notTiny.not_gt]
  split
  · rename_i natural
    have power : (10 : ℚ) ^ e = (10 ^ e.toNat : ℕ) := by
      push_cast
      rw [← zpow_natCast, Int.toNat_of_nonneg natural]
    refine mul_eq canonical _ _ ?_ ?_
    · have value : ((d <<< 53 : ℕ) : ℚ) * 2 ^ (-53 : ℤ) * ((10 ^ e.toNat : ℕ) * 2 ^ (0 : ℤ)) =
          d * 10 ^ e := by
        rw [power, Nat.shiftLeft_eq]
        push_cast
        norm_num
        ring
      change m.Covers (((d <<< 53 : ℕ) : ℚ) * 2 ^ (-53 : ℤ) * ((10 ^ e.toNat : ℕ) * 2 ^ (0 : ℤ)))
      rwa [value]
    · calc 2 ^ 52 ≤ 1 * 2 ^ 53 * 1 := by norm_num
        _ ≤ d * 2 ^ 53 * 10 ^ e.toNat :=
          Nat.mul_le_mul (Nat.mul_le_mul_right _ (Nat.pos_of_ne_zero pos)) (Nat.pow_pos (by decide))
        _ = d <<< 53 * 10 ^ e.toNat := by rw [Nat.shiftLeft_eq]
  · rename_i negative
    refine div_eq canonical _ _ ?_
    have value : (d : ℚ) * 2 ^ (0 : ℤ) / ((10 ^ (-e).toNat : ℕ) * 2 ^ (0 : ℤ)) = d * 10 ^ e := by
      have exponent : -e = ((-e).toNat : ℤ) := by omega
      push_cast
      rw [← zpow_natCast, ← exponent, zpow_neg]
      norm_num
    rwa [value]

/-- The magnitude of a natural number that has room in the coefficient. -/
def Magnitude.ofNat (n : ℕ) : Magnitude :=
  ⟨n * 2 ^ (52 - n.log2), n.log2 - 52, n * 2 ^ (52 - n.log2) = 2 ^ 52⟩

namespace Magnitude

variable {n : ℕ}

theorem log2_le (pos : n ≠ 0) (lt : n < 2 ^ 53) : n.log2 ≤ 52 :=
  Nat.lt_succ_iff.1 ((Nat.log2_lt pos).2 lt)

/-- The coefficient is full. -/
theorem le_coefficient_ofNat (pos : n ≠ 0) (lt : n < 2 ^ 53) :
    2 ^ 52 ≤ (ofNat n).coefficient := by
  calc 2 ^ 52 = 2 ^ n.log2 * 2 ^ (52 - n.log2) := by
        rw [← Nat.pow_add, Nat.add_sub_cancel' (log2_le pos lt)]
    _ ≤ n * 2 ^ (52 - n.log2) := Nat.mul_le_mul_right _ (Nat.log2_self_le pos)

theorem canonical_ofNat (pos : n ≠ 0) (lt : n < 2 ^ 53) : (ofNat n).Canonical := by
  have log := log2_le pos lt
  have below := le_coefficient_ofNat pos lt
  have above : (ofNat n).coefficient < 2 ^ 53 := by
    calc n * 2 ^ (52 - n.log2) < 2 ^ (n.log2 + 1) * 2 ^ (52 - n.log2) :=
          Nat.mul_lt_mul_of_pos_right Nat.lt_log2_self (by positivity)
      _ = 2 ^ 53 := by
          rw [← Nat.pow_add]
          congr 1
          omega
  have least : -1074 < (ofNat n).exponent := by
    change -1074 < (n.log2 : ℤ) - 52
    omega
  have most : (ofNat n).exponent ≤ 0 := by
    change (n.log2 : ℤ) - 52 ≤ 0
    omega
  exact ⟨by omega, above, least.le, by omega, .inr below,
    decide_eq_true_iff.trans (and_iff_left least.ne').symm⟩

theorem value_ofNat (pos : n ≠ 0) (lt : n < 2 ^ 53) :
    ((ofNat n).coefficient : ℚ) * 2 ^ (ofNat n).exponent = n := by
  have log := log2_le pos lt
  have exponent : (n.log2 : ℤ) - 52 = -((52 - n.log2 : ℕ) : ℤ) := by omega
  simp only [ofNat]
  rw [exponent, zpow_neg, zpow_natCast]
  push_cast
  exact mul_inv_cancel_right₀ (by positivity) _

/-- A magnitude lies in its own interval. -/
theorem covers_self (m : Magnitude) : m.Covers (m.coefficient * 2 ^ m.exponent) := by
  have positive : 0 < m.reach := by
    unfold reach
    split <;> norm_num
  constructor <;> rw [mul_div_cancel_right₀ _ (two_zpow_pos _).ne'] <;>
    first | linarith | exact fun _ => ⟨by linarith, by linarith⟩

end Magnitude

/-- The double of a magnitude. -/
def toDouble {m : Magnitude} (canonical : m.Canonical) : Float :=
  .ofModel (.pack (.finite .positive m.coefficient m.exponent canonical.pos))

theorem unpack_toDouble {m : Magnitude} (canonical : m.Canonical) :
    (toDouble canonical).toModel.unpack =
      .finite .positive m.coefficient m.exponent canonical.pos :=
  unpack_pack canonical .positive

theorem toFloat_eq {n : ℕ} (pos : n ≠ 0) (lt : n < 2 ^ 53) :
    n.toUInt64.toFloat = toDouble (Magnitude.canonical_ofNat pos lt) := by
  have word : n.toUInt64.toNat = n := Nat.mod_eq_of_lt (by omega)
  have log := Magnitude.log2_le pos lt
  have covers := (Magnitude.ofNat n).covers_self
  rw [Magnitude.value_ofNat pos lt] at covers
  have rounded : UnpackedFloat.round Format.binary64 .positive n 0 =
      .finite .positive (Magnitude.ofNat n).coefficient (Magnitude.ofNat n).exponent
        (Magnitude.canonical_ofNat pos lt).pos := by
    have shift : (0 - max ((n.log2 : ℤ) + 0 - 52) (-1074)).toNat = 52 - n.log2 := by omega
    have exponent : (0 : ℤ) - ((52 - n.log2 : ℕ) : ℤ) = n.log2 - 52 := by omega
    unfold UnpackedFloat.round decreaseExponent
    rw [targetExponent_eq]
    dsimp only
    rw [shift, exponent]
    refine roundWithAccuracy_eq (Magnitude.canonical_ofNat pos lt) covers ?_ (.inr ?_) _
    · have value := Magnitude.value_ofNat pos lt
      change (n : ℚ) / 2 ^ ((n.log2 : ℤ) - 52) = (n <<< (52 - n.log2) : ℕ)
      rw [div_eq_iff (two_zpow_pos _).ne', Nat.shiftLeft_eq]
      exact value.symm
    · rw [show (52 : ℤ) + (n.log2 - 52) = n.log2 by ring, zpow_natCast]
      exact_mod_cast Nat.log2_self_le pos
  unfold UInt64.toFloat toDouble Float.Model.ofUInt64 UnpackedFloat.ofUInt64 UnpackedFloat.ofNat
    UnpackedFloat.ofInt UnpackedFloat.normalize
  rw [word, Int.compare_eq_gt.2 (by omega)]
  exact congrArg (fun u => Float.ofModel (.pack u)) rounded

/-- The magnitude of a power of ten that is a double. -/
def powerOfTen (e : ℕ) : Magnitude :=
  { Magnitude.ofNat (5 ^ e) with exponent := (Magnitude.ofNat (5 ^ e)).exponent + e }

theorem canonical_powerOfTen {e : ℕ} (le : e ≤ 22) : (powerOfTen e).Canonical := by
  have fits : 5 ^ e < 2 ^ 53 := (Nat.pow_le_pow_right (by decide) le).trans_lt (by decide)
  have positive : 5 ^ e ≠ 0 := (Nat.pow_pos (by decide)).ne'
  obtain ⟨pos, lt, -, -, -, narrow⟩ := Magnitude.canonical_ofNat positive fits
  have least : -52 ≤ (Magnitude.ofNat (5 ^ e)).exponent := by
    change -52 ≤ ((5 ^ e).log2 : ℤ) - 52
    omega
  have most : (Magnitude.ofNat (5 ^ e)).exponent ≤ 0 := by
    have := Magnitude.log2_le positive fits
    change ((5 ^ e).log2 : ℤ) - 52 ≤ 0
    omega
  refine ⟨pos, lt, ?_, ?_, .inr (Magnitude.le_coefficient_ofNat positive fits), narrow.trans ?_⟩
  all_goals
    simp only [powerOfTen]
    omega

theorem value_powerOfTen {e : ℕ} (le : e ≤ 22) :
    ((powerOfTen e).coefficient : ℚ) * 2 ^ (powerOfTen e).exponent = 10 ^ e := by
  have lt : 5 ^ e < 2 ^ 53 := (Nat.pow_le_pow_right (by decide) le).trans_lt (by decide)
  have value := Magnitude.value_ofNat (Nat.pow_pos (by decide) : 0 < 5 ^ e).ne' lt
  simp only [powerOfTen]
  rw [zpow_add₀ (by norm_num), ← mul_assoc, value, zpow_natCast]
  push_cast
  rw [← mul_pow]
  norm_num

/-- The powers of ten that are doubles are listed. -/
theorem exactlyRepresentablePowersOfTen_eq :
    ∀ e : Fin Float.exactlyRepresentablePowersOfTen.size,
      Float.exactlyRepresentablePowersOfTen[e] =
        toDouble (canonical_powerOfTen (Nat.le_of_lt_succ e.isLt)) := by
  decide +kernel

/-- Decimals with a power of ten that is multiplied or divided by are read as the nearest double,
with or without the short cut. -/
theorem ofScientific_eq {m : Magnitude} (canonical : m.Canonical) {d : ℕ} (pos : d ≠ 0)
    (divided : Bool) {k : ℕ} (covers : m.Covers (d * 10 ^ (if divided then -k else k : ℤ))) :
    Float.ofScientific d divided k = toDouble canonical := by
  unfold Float.ofScientific
  split
  · rename_i short
    obtain ⟨lt, le⟩ := short
    have left := unpack_toDouble (Magnitude.canonical_ofNat pos lt)
    have right := unpack_toDouble (canonical_powerOfTen le)
    have valueLeft := Magnitude.value_ofNat pos lt
    have valueRight := value_powerOfTen le
    have listed : k < Float.exactlyRepresentablePowersOfTen.size := Nat.lt_succ_of_le le
    have power : Float.exactlyRepresentablePowersOfTen[k] = toDouble (canonical_powerOfTen le) :=
      exactlyRepresentablePowersOfTen_eq ⟨k, listed⟩
    dsimp only
    rw [toFloat_eq pos lt, power]
    cases divided with
    | true =>
        simp only [if_true] at covers ⊢
        change Float.ofModel (.pack (UnpackedFloat.div Format.binary64 _ _)) = _
        rw [left, right, div_eq canonical]
        · rfl
        · rw [valueLeft, valueRight]
          rwa [zpow_neg, zpow_natCast, ← div_eq_mul_inv] at covers
    | false =>
        simp only [Bool.false_eq_true, if_false] at covers ⊢
        change Float.ofModel (.pack (UnpackedFloat.mul Format.binary64 _ _)) = _
        rw [left, right, mul_eq canonical]
        · rfl
        · rw [valueLeft, valueRight]
          rwa [zpow_natCast] at covers
        · calc 2 ^ 52 ≤ (Magnitude.ofNat d).coefficient * 1 :=
                (Magnitude.le_coefficient_ofNat pos lt).trans (Nat.mul_one _).ge
            _ ≤ (Magnitude.ofNat d).coefficient * (powerOfTen k).coefficient :=
                Nat.mul_le_mul_left _ (canonical_powerOfTen le).pos
  · have read := ofScientific_unpacked canonical pos covers
    have exponent : (if divided then Int.negOfNat k else Int.ofNat k) =
        (if divided then -k else k : ℤ) := by
      cases divided with
      | true => exact Int.negOfNat_eq
      | false => rfl
    rw [exponent]
    exact congrArg (fun u => Float.ofModel (.pack u)) read

/-- The sign is put in front of a magnitude. -/
theorem neg_toDouble {m : Magnitude} (canonical : m.Canonical) :
    -toDouble canonical =
      .ofModel (.pack (.finite .negative m.coefficient m.exponent canonical.pos)) := by
  change Float.ofModel (.pack (toDouble canonical).toModel.unpack.neg) = _
  rw [unpack_toDouble]
  rfl

/-- No double is as large as this power of ten. -/
theorem two_zpow_lt : (2 : ℚ) ^ (1075 : ℤ) < 10 ^ (400 : ℤ) := by
  have : 2 ^ 1075 < 10 ^ 400 := by decide +kernel
  exact_mod_cast this

/-- The first digit of a decimal among the doubles stands at most four hundred places from the
point. -/
theorem place_bounds {d : ℕ} (pos : d ≠ 0) {e : ℤ} (least : (2 : ℚ) ^ (-1075 : ℤ) ≤ d * 10 ^ e)
    (most : (d * 10 ^ e : ℚ) < 2 ^ (1024 : ℤ)) :
    -400 ≤ (digitCount d + e : ℤ) ∧ (digitCount d + e : ℤ) ≤ 400 := by
  constructor
  · by_contra! tiny
    have digits : (d : ℚ) ≤ 10 ^ (digitCount d : ℤ) := by
      rw [zpow_natCast]
      exact_mod_cast (digitCount_le_iff.1 le_rfl : d < 10 ^ digitCount d).le
    have : (2 : ℚ) ^ (-1075 : ℤ) < 2 ^ (-1075 : ℤ) := calc
      (2 : ℚ) ^ (-1075 : ℤ) ≤ d * 10 ^ e := least
      _ ≤ 10 ^ (digitCount d : ℤ) * 10 ^ e := by gcongr
      _ = 10 ^ (digitCount d + e : ℤ) := (zpow_add₀ (by norm_num) _ _).symm
      _ ≤ 10 ^ (-400 : ℤ) := zpow_le_zpow_right₀ (by norm_num) tiny.le
      _ < 2 ^ (-1075 : ℤ) := by
        rw [zpow_neg, zpow_neg]
        exact inv_strictAnti₀ (two_zpow_pos _) two_zpow_lt
    exact lt_irrefl _ this
  · by_contra! huge
    have digits : (10 : ℚ) ^ (digitCount d : ℤ) ≤ 10 * d := by
      rw [zpow_natCast]
      exact_mod_cast pow_digitCount_le pos
    have : (2 : ℚ) ^ (1024 : ℤ) < 2 ^ (1024 : ℤ) := calc
      (2 : ℚ) ^ (1024 : ℤ) ≤ 2 ^ (1075 : ℤ) := zpow_le_zpow_right₀ (by norm_num) (by norm_num)
      _ ≤ 10 ^ (400 : ℤ) := two_zpow_lt.le
      _ ≤ 10 ^ (digitCount d + (e - 1) : ℤ) := zpow_le_zpow_right₀ (by norm_num) (by omega)
      _ = 10 ^ (digitCount d : ℤ) * 10 ^ (e - 1) := zpow_add₀ (by norm_num) _ _
      _ ≤ 10 * d * 10 ^ (e - 1) := by gcongr
      _ = d * 10 ^ e := by
        rw [zpow_sub₀ (by norm_num), zpow_one]
        ring
      _ < 2 ^ (1024 : ℤ) := most
    exact lt_irrefl _ this

/-- A decimal in the rounding interval of a finite double is read as that double. -/
theorem ofDecimal_eq {x : Float} (number : x.isNaN = false) (finite : x.isInf = false)
    (nonzero : (magnitude x).coefficient ≠ 0) {d : ℕ} {e : ℤ}
    (covers : (magnitude x).Covers (d * 10 ^ e)) : ofDecimal (isNegative x) d e = x := by
  have canonical := canonical_magnitude number finite nonzero
  obtain ⟨least, most⟩ := covers.size canonical
  have pos : d ≠ 0 := by
    rintro rfl
    have : (0 : ℚ) < 2 ^ (-1075 : ℤ) := two_zpow_pos _
    simp only [Nat.cast_zero, zero_mul] at least
    exact absurd least this.not_ge
  obtain ⟨notTiny, notHuge⟩ := place_bounds pos least most
  have unsigned : (if 0 ≤ e then Float.ofScientific d false e.toNat
      else Float.ofScientific d true (-e).toNat) = toDouble canonical := by
    split
    · rename_i natural
      refine ofScientific_eq canonical pos false ?_
      rwa [if_neg Bool.false_ne_true, Int.toNat_of_nonneg natural]
    · rename_i negative
      refine ofScientific_eq canonical pos true ?_
      rwa [if_pos rfl, Int.toNat_of_nonneg (by omega), neg_neg]
  have whole := ofModel_pack_unpack x
  rw [unpack_eq number finite, dif_neg nonzero] at whole
  have some : (decide (d = 0) || decide ((digitCount d + e : ℤ) < -400)) = false := by
    simp [pos, notTiny]
  unfold ofDecimal
  dsimp only
  rw [some, if_neg Bool.false_ne_true, if_neg notHuge.not_gt, unsigned]
  split
  · rename_i negative
    rw [sign, if_pos negative] at whole
    exact (neg_toDouble canonical).trans whole
  · rename_i positive
    rw [sign, if_neg positive] at whole
    exact whole

/-- Zero is read with its sign. -/
theorem ofDecimal_zero {x : Float} (number : x.isNaN = false) (finite : x.isInf = false)
    (zero : (magnitude x).coefficient = 0) (e : ℤ) : ofDecimal (isNegative x) 0 e = x := by
  have whole := ofModel_pack_unpack x
  rw [unpack_eq number finite, dif_pos zero] at whole
  have positive : (0.0 : Float) = .ofModel (.pack (.zero .positive)) := by decide +kernel
  have negative : -(0.0 : Float) = .ofModel (.pack (.zero .negative)) := by decide +kernel
  have zero : (decide ((0 : ℕ) = 0) || decide ((digitCount 0 + e : ℤ) < -400)) = true := rfl
  unfold ofDecimal
  dsimp only
  rw [if_pos zero]
  split
  · rename_i minus
    rw [sign, if_pos minus] at whole
    exact negative.trans whole
  · rename_i plus
    rw [sign, if_neg plus] at whole
    exact positive.trans whole

end RowQuery.Number.Binary64
