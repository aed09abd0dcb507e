import RowQuery.Proofs.Number.NearestDouble

/-!
# The shortest decimal of a double

The decimal that is written for a finite double lies in its rounding interval: with seventeen
digits the grid is finer than the interval is wide, so one of the two neighbours on it lies inside.
Therefore every finite double is read back from its exact form, the sign of a zero included.
-/

namespace RowQuery.Number.Binary64

/-! ## Grids -/

theorem ten_zpow_pos (e : ℤ) : (0 : ℚ) < 10 ^ e := zpow_pos (by norm_num) e

/-- The number that a decimal stands for. -/
def Shortest.value (s : Shortest) : ℚ :=
  s.digits * 10 ^ s.exponent

theorem value_dropZeros (d : ℕ) (e : ℤ) : (dropZeros d e).value = d * 10 ^ e := by
  induction d, e using dropZeros.induct with
  | case1 d e trailing ih =>
      have whole : ((d / 10 : ℕ) : ℚ) * 10 = d := by
        exact_mod_cast Nat.div_mul_cancel (Nat.dvd_of_mod_eq_zero trailing.2)
      rw [dropZeros, dif_pos trailing, ih, zpow_add₀ (by norm_num), zpow_one, ← whole]
      ring
  | case2 d e done => rw [dropZeros, dif_neg done, Shortest.value]

theorem scaleByTen_pos (n : ℕ) (e : ℤ) : 0 < (scaleByTen n e).2 := by
  unfold scaleByTen
  split
  · exact Nat.one_pos
  · exact Nat.pow_pos (by decide)

theorem scaleByTen_value (n : ℕ) (e : ℤ) :
    ((scaleByTen n e).1 : ℚ) = n * 10 ^ e * (scaleByTen n e).2 := by
  unfold scaleByTen
  split
  · rename_i natural
    have power : (10 : ℚ) ^ e = 10 ^ e.toNat := by
      rw [← zpow_natCast, Int.toNat_of_nonneg natural]
    rw [power]
    simp
  · rename_i negative
    have power : (10 : ℚ) ^ e = (10 ^ (-e).toNat)⁻¹ := by
      rw [← zpow_natCast, ← zpow_neg, Int.toNat_of_nonneg (by omega), neg_neg]
    rw [power]
    simp

section

variable {low value high unit : ℕ} {closed : Bool} {top : ℤ} {count : ℕ} {rule : MiddleRule}

theorem le_grid {a d : ℕ} (pos : 0 < unit) (e : ℤ) :
    a * (scaleByTen unit e).2 ≤ d * (scaleByTen unit e).1 ↔ (a / unit : ℚ) ≤ d * 10 ^ e := by
  have unitPos : (0 : ℚ) < unit := by exact_mod_cast pos
  have denPos : (0 : ℚ) < (scaleByTen unit e).2 := by exact_mod_cast scaleByTen_pos unit e
  rw [← Nat.cast_le (α := ℚ), div_le_iff₀ unitPos]
  push_cast
  rw [scaleByTen_value, show (d * (unit * 10 ^ e * (scaleByTen unit e).2) : ℚ) =
    d * 10 ^ e * unit * (scaleByTen unit e).2 by ring]
  exact mul_le_mul_iff_left₀ denPos

theorem grid_le {a d : ℕ} (pos : 0 < unit) (e : ℤ) :
    d * (scaleByTen unit e).1 ≤ a * (scaleByTen unit e).2 ↔ (d * 10 ^ e : ℚ) ≤ a / unit := by
  have unitPos : (0 : ℚ) < unit := by exact_mod_cast pos
  have denPos : (0 : ℚ) < (scaleByTen unit e).2 := by exact_mod_cast scaleByTen_pos unit e
  rw [← Nat.cast_le (α := ℚ), le_div_iff₀ unitPos]
  push_cast
  rw [scaleByTen_value, show (d * (unit * 10 ^ e * (scaleByTen unit e).2) : ℚ) =
    d * 10 ^ e * unit * (scaleByTen unit e).2 by ring]
  exact mul_le_mul_iff_left₀ denPos

/-- A number lies between two others, or is one of them if the ends belong to the interval. -/
def Between (low high : ℚ) (closed : Bool) (q : ℚ) : Prop :=
  if closed then low ≤ q ∧ q ≤ high else low < q ∧ q < high

/-- A point of the grid is inside the interval. -/
def inside (low high unit : ℕ) (closed : Bool) (e : ℤ) (d : ℕ) : Bool :=
  if closed then
    low * (scaleByTen unit e).2 ≤ d * (scaleByTen unit e).1 &&
      d * (scaleByTen unit e).1 ≤ high * (scaleByTen unit e).2
  else
    low * (scaleByTen unit e).2 < d * (scaleByTen unit e).1 &&
      d * (scaleByTen unit e).1 < high * (scaleByTen unit e).2

theorem inside_iff (pos : 0 < unit) (e : ℤ) (d : ℕ) :
    inside low high unit closed e d = true ↔
      Between (low / unit) (high / unit) closed (d * 10 ^ e) := by
  unfold Between inside
  cases closed with
  | true =>
      simp only [if_true, Bool.and_eq_true, decide_eq_true_eq]
      exact and_congr (le_grid pos e) (grid_le pos e)
  | false =>
      simp only [Bool.false_eq_true, if_false, Bool.and_eq_true, decide_eq_true_eq]
      rw [← not_le, ← not_le, ← not_le, ← not_le]
      exact and_congr (not_congr (grid_le pos e)) (not_congr (le_grid pos e))

/-- The point of the grid below the value. -/
def below (value unit : ℕ) (e : ℤ) : ℕ :=
  value * (scaleByTen unit e).2 / (scaleByTen unit e).1

theorem below_spec (value : ℕ) (pos : 0 < unit) (e : ℤ) :
    below value unit e * 10 ^ e ≤ (value / unit : ℚ) ∧
      (value / unit : ℚ) < (below value unit e + 1 : ℕ) * 10 ^ e := by
  have scale : 0 < (scaleByTen unit e).1 := by
    have unitPos : (0 : ℚ) < unit := by exact_mod_cast pos
    have denPos : (0 : ℚ) < (scaleByTen unit e).2 := by exact_mod_cast scaleByTen_pos unit e
    have : (0 : ℚ) < (scaleByTen unit e).1 := by
      rw [scaleByTen_value]
      exact mul_pos (mul_pos unitPos (ten_zpow_pos e)) denPos
    exact_mod_cast this
  constructor
  · exact (grid_le pos e).1 (Nat.div_mul_le_self _ _)
  · rw [← not_le, ← grid_le pos e, not_le]
    exact (Nat.div_lt_iff_lt_mul scale).1 (Nat.lt_succ_self _)

/-- A neighbour of the value on the grid that is inside the interval is taken. -/
theorem onGrid?_eq (rule : MiddleRule) (low value high unit : ℕ) (closed : Bool) (top : ℤ)
    (count : ℕ) : ∃ takesLower : Bool,
    onGrid? rule low value high unit closed top count =
      if inside low high unit closed (top - count) (below value unit (top - count)) &&
          (!inside low high unit closed (top - count) (below value unit (top - count) + 1) ||
            takesLower) then
        some (dropZeros (below value unit (top - count)) (top - count))
      else if inside low high unit closed (top - count) (below value unit (top - count) + 1) then
        some (dropZeros (below value unit (top - count) + 1) (top - count))
      else none :=
  ⟨_, rfl⟩

/-- What is found on a grid is inside the interval. -/
theorem onGrid?_spec (pos : 0 < unit) {s : Shortest}
    (found : onGrid? rule low value high unit closed top count = some s) :
    Between (low / unit) (high / unit) closed s.value := by
  obtain ⟨takesLower, steps⟩ := onGrid?_eq rule low value high unit closed top count
  rw [steps] at found
  split at found
  · rename_i taken
    rw [Bool.and_eq_true] at taken
    cases found
    rw [value_dropZeros]
    exact (inside_iff pos _ _).1 taken.1
  · split at found
    · rename_i taken
      cases found
      rw [value_dropZeros]
      exact (inside_iff pos _ _).1 taken
    · cases found

/-- Something is found on a grid with a neighbour of the value inside the interval. -/
theorem exists_onGrid? (rule : MiddleRule) (pos : 0 < unit)
    (near : Between (low / unit) (high / unit) closed
        (below value unit (top - count) * 10 ^ (top - count)) ∨
      Between (low / unit) (high / unit) closed
        ((below value unit (top - count) + 1 : ℕ) * 10 ^ (top - count))) :
    ∃ s, onGrid? rule low value high unit closed top count = some s := by
  obtain ⟨takesLower, steps⟩ := onGrid?_eq rule low value high unit closed top count
  rw [← inside_iff pos, ← inside_iff pos] at near
  rw [steps]
  split
  · exact ⟨_, rfl⟩
  · rename_i passed
    split
    · exact ⟨_, rfl⟩
    · rename_i outside
      rw [Bool.not_eq_true] at outside
      rw [outside] at passed near
      simp at passed near
      rw [near] at passed
      cases passed

/-- A grid that is looked at finds something, or one before it did. -/
theorem firstGrid_spec {fuel : ℕ} {i : ℕ} (less : i < fuel)
    (found : ∃ s, onGrid? rule low value high unit closed top (count + i) = some s) :
    ∃ j, onGrid? rule low value high unit closed top j =
      some (firstGrid rule low value high unit closed top count fuel) := by
  induction fuel generalizing count i with
  | zero => exact absurd less (Nat.not_lt_zero i)
  | succ fuel ih =>
      rw [firstGrid]
      split
      · rename_i s here
        exact ⟨count, here⟩
      · rename_i missing
        cases i with
        | zero =>
            obtain ⟨s, here⟩ := found
            rw [Nat.add_zero, missing] at here
            cases here
        | succ i =>
            rw [← Nat.add_assoc, Nat.add_right_comm] at found
            exact ih (Nat.lt_of_succ_lt_succ less) found

/-- The first power of ten above a number is at most ten times as large. -/
theorem top_le (posV : 0 < value) (posU : 0 < unit) :
    (10 : ℚ) ^ ((if unit ≤ value then (digitCount (value / unit) : ℤ)
      else 1 - (digitCount ((unit + value - 1) / value - 1) : ℤ)) - 1) ≤ value / unit := by
  have valuePos : (0 : ℚ) < value := by exact_mod_cast posV
  have unitPos : (0 : ℚ) < unit := by exact_mod_cast posU
  split
  · rename_i large
    have digits := pow_digitCount_le (Nat.div_pos large posU).ne'
    have floor : ((value / unit : ℕ) : ℚ) ≤ value / unit := Nat.cast_div_le
    rw [zpow_sub₀ (by norm_num), zpow_one, zpow_natCast, div_le_iff₀ (by norm_num)]
    have digits : (10 : ℚ) ^ digitCount (value / unit) ≤ 10 * (value / unit : ℕ) := by
      exact_mod_cast digits
    linarith
  · rename_i small
    generalize quotient : (unit + value - 1) / value = k
    have enough : unit ≤ k * value := by
      have := Nat.div_add_mod (unit + value - 1) value
      have := Nat.mod_lt (unit + value - 1) posV
      rw [quotient] at *
      rw [Nat.mul_comm]
      omega
    have digits : k - 1 < 10 ^ digitCount (k - 1) := digitCount_le_iff.1 le_rfl
    have enough : unit ≤ 10 ^ digitCount (k - 1) * value :=
      enough.trans (Nat.mul_le_mul_right _ (by omega))
    have enough : (unit : ℚ) ≤ 10 ^ digitCount (k - 1) * value := by exact_mod_cast enough
    have exponent : (1 - digitCount (k - 1) - 1 : ℤ) = -digitCount (k - 1) := by ring
    rw [exponent, zpow_neg, zpow_natCast, le_div_iff₀ unitPos, inv_mul_le_iff₀ (by positivity)]
    exact enough

theorem Between.of_lt {low high q : ℚ} (above : low < q) (below : q < high) :
    Between low high closed q := by
  unfold Between
  split
  · exact ⟨above.le, below.le⟩
  · exact ⟨above, below⟩

end

/-- On a grid of seventeen digits one of the neighbours of a magnitude is in its interval. -/
theorem near_grid {m : Magnitude} (canonical : m.Canonical) (closed : Bool) {g : ℚ}
    (fine : g * 10 ^ 16 ≤ m.coefficient * 2 ^ m.exponent) {n : ℕ}
    (below : n * g ≤ m.coefficient * 2 ^ m.exponent)
    (above : m.coefficient * 2 ^ m.exponent < (n + 1 : ℕ) * g) :
    Between ((m.coefficient - m.reach) * 2 ^ m.exponent)
        ((m.coefficient + 1 / 2) * 2 ^ m.exponent) closed (n * g) ∨
      Between ((m.coefficient - m.reach) * 2 ^ m.exponent)
        ((m.coefficient + 1 / 2) * 2 ^ m.exponent) closed ((n + 1 : ℕ) * g) := by
  have unit := two_zpow_pos m.exponent
  generalize (2 : ℚ) ^ m.exponent = u at *
  have reach : (m.coefficient : ℚ) < 2 * 10 ^ 16 * m.reach := by
    unfold Magnitude.reach
    split
    · rename_i narrow
      rw [(canonical.narrow.1 narrow).1]
      norm_num
    · have short : (m.coefficient : ℚ) < 2 ^ 53 := by exact_mod_cast canonical.lt
      refine short.trans ?_
      norm_num
  have half : g / 2 < m.reach * u := by
    have : m.coefficient * u < 2 * 10 ^ 16 * m.reach * u := by gcongr
    linarith
  have most : m.reach * u ≤ 1 / 2 * u := by
    gcongr
    exact m.reach_le
  push_cast at above ⊢
  rcases le_total (m.coefficient * u - n * g) (g / 2) with near | far
  · exact .inl (.of_lt (by linarith) (by linarith))
  · exact .inr (.of_lt (by linarith) (by linarith))

/-- A power of two as a fraction of natural numbers. -/
theorem exists_scale (e : ℤ) : ∃ scale unit : ℕ,
    (if 0 ≤ e then (Nat.pow 2 e.toNat, 1) else (1, Nat.pow 2 (-e).toNat)) = (scale, unit) ∧
      0 < scale ∧ 0 < unit ∧ (scale : ℚ) = 2 ^ e * unit := by
  split
  · rename_i natural
    refine ⟨_, _, rfl, Nat.pow_pos (by decide), Nat.one_pos, ?_⟩
    have power : (2 : ℚ) ^ e = 2 ^ e.toNat := by
      rw [← zpow_natCast, Int.toNat_of_nonneg natural]
    rw [power, Nat.cast_one, mul_one]
    exact Nat.cast_pow 2 e.toNat
  · rename_i negative
    refine ⟨_, _, rfl, Nat.one_pos, Nat.pow_pos (by decide), ?_⟩
    have power : (2 : ℚ) ^ e = (2 ^ (-e).toNat)⁻¹ := by
      rw [← zpow_natCast, ← zpow_neg, Int.toNat_of_nonneg (by omega), neg_neg]
    have cast : ((Nat.pow 2 (-e).toNat : ℕ) : ℚ) = 2 ^ (-e).toNat := Nat.cast_pow 2 _
    rw [power, cast, Nat.cast_one]
    exact (inv_mul_cancel₀ (by positivity)).symm

/-- A magnitude and the bounds of its interval in quarters of its unit. -/
theorem quarters {m : Magnitude} (pos : 1 ≤ m.coefficient) {scale unit : ℕ}
    (quarter : (scale : ℚ) / unit = 2 ^ m.exponent / 4) :
    ((4 * m.coefficient * scale - (if m.narrowBelow then 1 else 2) * scale : ℕ) : ℚ) / unit =
        (m.coefficient - m.reach) * 2 ^ m.exponent ∧
      ((4 * m.coefficient * scale : ℕ) : ℚ) / unit = m.coefficient * 2 ^ m.exponent ∧
      ((4 * m.coefficient * scale + 2 * scale : ℕ) : ℚ) / unit =
        (m.coefficient + 1 / 2) * 2 ^ m.exponent := by
  refine ⟨?_, ?_, ?_⟩
  · have part : (if m.narrowBelow then 1 else 2) * scale ≤ 4 * m.coefficient * scale :=
      Nat.mul_le_mul_right _ (by split <;> omega)
    rw [Nat.cast_sub part]
    push_cast
    rw [← sub_mul, mul_div_assoc, quarter]
    unfold Magnitude.reach
    split <;> ring
  · push_cast
    rw [mul_div_assoc, quarter]
    ring
  · push_cast
    rw [← add_mul, mul_div_assoc, quarter]
    ring

/-- The search for the decimal ends between the bounds. -/
theorem between_shortest {m : Magnitude} (canonical : m.Canonical) (rule : MiddleRule) :
    Between ((m.coefficient - m.reach) * 2 ^ m.exponent)
      ((m.coefficient + 1 / 2) * 2 ^ m.exponent) (m.coefficient % 2 == 0)
      (shortest rule m).value := by
  obtain ⟨scale, unit, pair, posS, posU, quarter⟩ := exists_scale (m.exponent - 2)
  have unitPos : (0 : ℚ) < unit := by exact_mod_cast posU
  have quarter : (scale : ℚ) / unit = 2 ^ m.exponent / 4 := by
    rw [quarter, mul_div_cancel_right₀ _ unitPos.ne', zpow_sub₀ (by norm_num)]
    norm_num
  have posC : 1 ≤ m.coefficient := canonical.pos
  have posV : 0 < 4 * m.coefficient * scale := by positivity
  obtain ⟨low, value, high⟩ := quarters posC quarter
  unfold shortest
  rw [if_neg canonical.pos.ne']
  dsimp only
  rw [pair]
  dsimp only
  rw [← low, ← high]
  have least := top_le posV posU
  rw [value] at least
  generalize (if unit ≤ 4 * m.coefficient * scale then
    (digitCount (4 * m.coefficient * scale / unit) : ℤ)
    else 1 - (digitCount ((unit + 4 * m.coefficient * scale - 1) /
      (4 * m.coefficient * scale) - 1) : ℤ)) = top at *
  have fine : (10 : ℚ) ^ (top - (17 : ℕ)) * 10 ^ 16 ≤ m.coefficient * 2 ^ m.exponent := by
    rw [← zpow_natCast (10 : ℚ) 16, ← zpow_add₀ (by norm_num)]
    convert least using 2
    push_cast
    ring
  obtain ⟨below, above⟩ := below_spec (4 * m.coefficient * scale) posU (top - (17 : ℕ))
  rw [value] at below above
  have near := near_grid canonical (m.coefficient % 2 == 0) fine below above
  rw [← low, ← high] at near
  have within : 16 < 18 := by decide
  obtain ⟨j, taken⟩ := firstGrid_spec (i := 16) within (exists_onGrid? rule posU near)
  exact onGrid?_spec posU taken

/-- The decimal that is written for a magnitude lies in its rounding interval. -/
theorem covers_shortest {m : Magnitude} (canonical : m.Canonical) (rule : MiddleRule) :
    m.Covers (shortest rule m).value := by
  have place := two_zpow_pos m.exponent
  have found := between_shortest canonical rule
  unfold Between at found
  split at found
  · rename_i even
    rw [← le_div_iff₀ place, ← div_le_iff₀ place] at found
    refine ⟨found.1, found.2, fun odd => ?_⟩
    rw [odd] at even
    cases even
  · rw [← lt_div_iff₀ place, ← div_lt_iff₀ place] at found
    exact ⟨found.1.le, found.2.le, fun _ => found⟩

/-! ## Reading -/

/-- The text is read as a decimal of a value, with either sign. -/
def Reads (text : List Char) (value : ℚ) : Prop :=
  ∀ negative, ∃ (d : ℕ) (e : ℤ),
    readUnsigned? negative text = some (ofDecimal negative d e) ∧ d * 10 ^ e = value

theorem takeWhile_digits {whole rest : List Char} (each : ∀ c ∈ whole, isDigit c = true)
    (ends : ∀ c ∈ rest.head?, isDigit c = false) :
    (whole ++ rest).takeWhile isDigit = whole ∧ (whole ++ rest).dropWhile isDigit = rest := by
  have none : rest.takeWhile isDigit = [] := by
    cases rest with
    | nil => rfl
    | cons c rest => rw [List.takeWhile_cons_of_neg (by simp [ends c rfl])]
  rw [List.takeWhile_append_of_pos each, List.dropWhile_append_of_pos each, none,
    Text.dropWhile_of_head ends]
  exact ⟨List.append_nil _, rfl⟩

/-- What may stand behind the digits: nothing, or an exponent. -/
def IsTail (tail : List Char) : Prop :=
  tail = [] ∨ ∃ more, tail = 'e' :: more

/-- How digits with an exponent behind them are read. -/
def readTail? (negative : Bool) (value places : ℕ) : List Char → Option Float
  | [] => some (ofDecimal negative value (-places))
  | _ :: more => (readExponent? more).map fun e => ofDecimal negative value (e - places)

theorem IsTail.head {tail : List Char} (isTail : IsTail tail) :
    ∀ c ∈ tail.head?, isDigit c = false := by
  rcases isTail with rfl | ⟨more, rfl⟩
  · exact nofun
  · rintro c ⟨⟩
    rfl

/-- Digits without a point. -/
theorem readUnsigned?_whole {whole tail : List Char} (present : whole ≠ [])
    (each : ∀ c ∈ whole, isDigit c = true) (isTail : IsTail tail) (negative : Bool) :
    readUnsigned? negative (whole ++ tail) = readTail? negative (digitsValue whole) 0 tail := by
  obtain ⟨taken, dropped⟩ := takeWhile_digits each isTail.head
  unfold readUnsigned?
  rw [taken, dropped]
  rcases isTail with rfl | ⟨more, rfl⟩ <;> simp [readTail?, present]

/-- Digits with a point. -/
theorem readUnsigned?_point {whole fraction tail : List Char} (present : whole ≠ [])
    (ofWhole : ∀ c ∈ whole, isDigit c = true) (ofFraction : ∀ c ∈ fraction, isDigit c = true)
    (isTail : IsTail tail) (negative : Bool) :
    readUnsigned? negative (whole ++ '.' :: (fraction ++ tail)) =
      readTail? negative (digitsValue (whole ++ fraction)) fraction.length tail := by
  have point : ∀ c ∈ ('.' :: (fraction ++ tail)).head?, isDigit c = false := by
    rintro c ⟨⟩
    rfl
  obtain ⟨taken, dropped⟩ := takeWhile_digits ofWhole point
  obtain ⟨taken', dropped'⟩ := takeWhile_digits ofFraction isTail.head
  unfold readUnsigned?
  rw [taken, dropped]
  rcases isTail with rfl | ⟨more, rfl⟩
  · rw [List.append_nil] at taken' dropped' ⊢
    simp [readTail?, present, taken', dropped']
  · simp [readTail?, present, taken', dropped']

theorem readExponent?_of_digits {text : List Char} (digits : ∀ c ∈ text, isDigit c = true) :
    readExponent? text = (readNat? text).map Int.ofNat := by
  unfold readExponent?
  split
  · have := digits '-' List.mem_cons_self
    cases this
  · have := digits '+' List.mem_cons_self
    cases this
  · cases readNat? text <;> rfl

theorem readExponent?_intText (e : ℤ) : readExponent? (intText e).toList = some e := by
  rw [toList_intText]
  split
  · rename_i negative
    rw [readExponent?, readNat?_digits]
    exact congrArg some (show -(e.natAbs : ℤ) = e by omega)
  · rename_i natural
    rw [readExponent?_of_digits (isDigit_of_mem_digits _), readNat?_digits]
    exact congrArg some (show (e.natAbs : ℤ) = e by omega)

/-- Digits with zeros behind them. -/
theorem digitsValue_append_zeros (text : List Char) (count : ℕ) :
    digitsValue (text ++ List.replicate count '0') = digitsValue text * 10 ^ count := by
  induction count with
  | zero => simp
  | succ count ih =>
      rw [List.replicate_succ', ← List.append_assoc, digitsValue, digitsValueFrom_append,
        ← digitsValue, ih, pow_succ]
      change digitsValue text * 10 ^ count * 10 + 0 = _
      ring

/-- Digits with a point in front of the last of them, and with zeros behind. -/
theorem reads_parts {whole : List Char} (fraction : List Char) (present : whole ≠ [])
    (ofWhole : ∀ c ∈ whole, isDigit c = true) (ofFraction : ∀ c ∈ fraction, isDigit c = true)
    (zeros : ℕ) :
    Reads (if (fraction ++ List.replicate zeros '0').isEmpty then whole
        else whole ++ '.' :: (fraction ++ List.replicate zeros '0'))
      (digitsValue (whole ++ fraction) * 10 ^ (-(fraction.length : ℤ))) := by
  intro negative
  split
  · rename_i empty
    rw [List.isEmpty_iff, List.append_eq_nil_iff] at empty
    obtain ⟨rfl, -⟩ := empty
    have read := readUnsigned?_whole present ofWhole (.inl rfl) negative
    rw [List.append_nil] at read ⊢
    exact ⟨_, _, read, by simp⟩
  · have each : ∀ c ∈ fraction ++ List.replicate zeros '0', isDigit c = true := by
      refine List.forall_mem_append.2 ⟨ofFraction, fun c member => ?_⟩
      rw [List.eq_of_mem_replicate member]
      rfl
    have read := readUnsigned?_point present ofWhole each (.inl rfl) negative
    rw [List.append_nil] at read
    refine ⟨_, _, read, ?_⟩
    rw [← List.append_assoc, digitsValue_append_zeros, List.length_append, List.length_replicate]
    push_cast
    rw [neg_add, zpow_add₀ (by norm_num), zpow_neg _ (zeros : ℤ), zpow_natCast]
    field_simp

theorem reads_positional (s : Shortest) (least : ℕ) : Reads (positional s least) s.value := by
  unfold positional
  dsimp only
  split
  · rename_i natural
    have each : ∀ c ∈ digits s.digits ++ List.replicate s.exponent.toNat '0', isDigit c = true := by
      refine List.forall_mem_append.2 ⟨isDigit_of_mem_digits _, fun c member => ?_⟩
      rw [List.eq_of_mem_replicate member]
      rfl
    have parts := reads_parts [] (List.append_ne_nil_of_left_ne_nil (digits_ne_nil _) _) each
      nofun (least - ([] : List Char).length)
    convert parts using 1
    have power : (10 : ℚ) ^ s.exponent = 10 ^ s.exponent.toNat := by
      rw [← zpow_natCast, Int.toNat_of_nonneg natural]
    rw [List.append_nil, digitsValue_append_zeros, digitsValue_digits, Shortest.value, power]
    simp
  · rename_i negative
    generalize length : (-s.exponent).toNat = places
    have each : ∀ c ∈ padZeros (places + 1) (digits s.digits), isDigit c = true :=
      fun c member => isDigit_of_mem_padZeros member
    have value := digitsValue_padZeros (places + 1) s.digits
    have long : places + 1 ≤ (padZeros (places + 1) (digits s.digits)).length := by
      simp only [padZeros, List.length_append, List.length_replicate]
      omega
    generalize padZeros (places + 1) (digits s.digits) = padded at each value long
    have present : padded.take (padded.length - places) ≠ [] := by
      rw [Ne, ← List.length_eq_zero_iff, List.length_take]
      omega
    have behind : (padded.drop (padded.length - places)).length = places := by
      rw [List.length_drop]
      omega
    have parts := reads_parts (padded.drop (padded.length - places)) present
      (fun c member => each c (List.mem_of_mem_take member))
      (fun c member => each c (List.mem_of_mem_drop member))
      (least - (padded.drop (padded.length - places)).length)
    convert parts using 1
    rw [List.take_append_drop, value, behind, Shortest.value]
    congr 2
    omega

theorem reads_scientific (s : Shortest) : Reads (scientific s []) s.value := by
  intro negative
  have each := isDigit_of_mem_digits s.digits
  have value := digitsValue_digits s.digits
  have tail (e : ℤ) : IsTail ('e' :: (intText e).toList) := .inr ⟨_, rfl⟩
  unfold scientific
  dsimp only
  rw [ite_self, List.nil_append]
  split
  · rename_i none
    exact absurd none (digits_ne_nil _)
  · rename_i c single
    rw [single] at each value ⊢
    rw [readUnsigned?_whole (List.cons_ne_nil _ _) each (tail _), readTail?, value,
      readExponent?_intText]
    refine ⟨_, _, rfl, ?_⟩
    rw [Shortest.value]
    congr 2
    simp
  · rename_i c more _ several
    rw [several] at each value ⊢
    obtain ⟨first, others⟩ := List.forall_mem_cons.1 each
    have read := readUnsigned?_point (List.cons_ne_nil c [])
      (List.forall_mem_singleton.2 first) others
      (tail (s.exponent + (c :: more).length - 1)) negative
    rw [readTail?, readExponent?_intText] at read
    refine ⟨_, _, read, ?_⟩
    rw [List.singleton_append, value, Shortest.value]
    congr 2
    rw [List.length_cons]
    push_cast
    ring

/-- What is read as an unsigned number is read with a sign in front, too. -/
theorem read?_of_reads {text : List Char} {value : ℚ} (reads : Reads text value) (negative : Bool) :
    ∃ (d : ℕ) (e : ℤ), read? ((if negative then "-" else "").toList ++ text) =
      some (ofDecimal negative d e) ∧ d * 10 ^ e = value := by
  obtain ⟨d, e, read, same⟩ := reads negative
  refine ⟨d, e, ?_, same⟩
  cases negative with
  | true =>
      change read? ('-' :: text) = _
      simp only [read?, read]
  | false =>
      change read? text = _
      unfold read?
      split
      rename_i sign body parts
      split at parts
      · simp [readUnsigned?, isDigit] at read
      · simp [readUnsigned?, isDigit] at read
      · cases parts
        rw [read]

/-- Every finite double is read back from its exact form. -/
theorem read?_exactText {x : Float} (number : x.isNaN = false) (finite : x.isInf = false) :
    read? (exactText x).toList = some x := by
  have reads (s : Shortest) : Reads
      (if s.digits = 0 || (-3 ≤ leading s && leading s ≤ 16) then positional s 1
        else scientific s []) s.value := by
    split
    · exact reads_positional s 1
    · exact reads_scientific s
  obtain ⟨d, e, read, value⟩ :=
    read?_of_reads (reads (shortest .upper (magnitude x))) (isNegative x)
  have text : read? (exactText x).toList = some (ofDecimal (isNegative x) d e) := by
    unfold exactText write
    dsimp only
    rw [number, finite, if_neg Bool.false_ne_true, if_neg Bool.false_ne_true,
      String.toList_append, String.toList_ofList]
    exact read
  rw [text]
  by_cases nonzero : (magnitude x).coefficient = 0
  · rw [shortest, if_pos nonzero] at value
    have zero : d = 0 := by
      have : (d : ℚ) * 10 ^ e = 0 := value.trans (by simp [Shortest.value])
      exact_mod_cast (mul_eq_zero.1 this).resolve_right (ten_zpow_pos e).ne'
    rw [zero, ofDecimal_zero number finite nonzero]
  · have covers := covers_shortest (canonical_magnitude number finite nonzero) .upper
    rw [← value] at covers
    rw [ofDecimal_eq number finite nonzero covers]

end RowQuery.Number.Binary64
