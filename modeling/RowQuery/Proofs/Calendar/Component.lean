import RowQuery.Proofs.Calendar.Seconds
import RowQuery.Proofs.Number.Numeral
import RowQuery.Proofs.Text.Words

/-!
# Interval texts as sums

An interval text is a sequence of components with blanks between their words.  A component is an
amount of a unit of time, or a clock.  What is read is the sum of the lengths of all components,
each rounded to whole microseconds.
-/

namespace RowQuery.Calendar

open RowQuery.Number

/-- The units of time in which an interval can be given. -/
inductive TimeUnit where
  | year
  | month
  | week
  | day
  | hour
  | minute
  | second
  deriving DecidableEq

namespace TimeUnit

/-- The length of the unit.  A year counts 365 days and a month 30. -/
def seconds : TimeUnit → ℕ
  | year => 31536000
  | month => 2592000
  | week => 604800
  | day => 86400
  | hour => 3600
  | minute => 60
  | second => 1

/-- The names in small letters. -/
def names : TimeUnit → List String
  | year => ["year"]
  | month => ["mon", "month"]
  | week => ["week"]
  | day => ["day"]
  | hour => ["hour"]
  | minute => ["min", "minute"]
  | second => ["sec", "second"]

/-- The names, each also in the plural, and each also with a comma behind it. -/
def spellings (unit : TimeUnit) : List (List Char) :=
  unit.names.flatMap fun name => ["", "s", ",", "s,"].map fun ending => (name ++ ending).toList

theorem readUnitSeconds?_of_spelled {unit : TimeUnit} {word : List Char}
    (spelled : word.map Char.toLower ∈ unit.spellings) :
    readUnitSeconds? word = some (Int64.ofNat unit.seconds) := by
  have each : ∀ spelling ∈ unit.spellings,
      unitSeconds? (Text.dropEndWhile (· == 's') (Text.dropEndWhile (· == ',') spelling)) =
        some (Int64.ofNat unit.seconds) := by
    cases unit <;> decide
  exact each _ spelled

theorem ofInt_seconds (unit : TimeUnit) :
    (Decimal.ofInt (Int64.ofNat unit.seconds)).negative = false ∧
      (Decimal.ofInt (Int64.ofNat unit.seconds)).coefficient = unit.seconds ∧
        (Decimal.ofInt (Int64.ofNat unit.seconds)).places = 0 := by
  cases unit <;> decide

end TimeUnit

/-- A word that names a unit of time. -/
structure UnitWord where
  unit : TimeUnit
  chars : List Char
  spelled : chars.map Char.toLower ∈ unit.spellings

/-- A component of an interval text. -/
inductive Component where
  | amount (sign : Sign) (number : Numeral) (word : UnitWord)
  | clock (sign : Sign) (hours minutes : DigitRun) (seconds : Option Numeral)

def secondsChars : Option Numeral → List Char
  | none => []
  | some seconds => ':' :: seconds.chars

/-- The text of a clock behind its sign. -/
def clockChars (hours minutes : DigitRun) (seconds : Option Numeral) : List Char :=
  hours.chars ++ ':' :: (minutes.chars ++ secondsChars seconds)

/-- The seconds on a clock, zero if it has only hours and minutes. -/
def secondsField (seconds : Option Numeral) : Numeral :=
  seconds.getD (.ofRun ⟨['0'], by decide, List.all_eq_true.mp rfl⟩)

/-- The seconds of a clock without its sign. -/
def clockSeconds (hours minutes : DigitRun) (seconds : Option Numeral) : ℚ :=
  hours.value * 3600 + minutes.value * 60 + (secondsField seconds).value

namespace Component

/-- An amount and its unit are two words, a clock is one. -/
def words : Component → List (List Char)
  | amount sign number word => [sign.chars ++ number.chars, word.chars]
  | clock sign hours minutes seconds => [sign.chars ++ clockChars hours minutes seconds]

/-- The length in seconds.  The sign of a clock is that of all its fields. -/
def length : Component → ℚ
  | amount sign number word => sign.factor * (number.value * word.unit.seconds)
  | clock sign hours minutes seconds => sign.factor * clockSeconds hours minutes seconds

/-- The length in seconds as far as a decimal has room for it. -/
def heldLength : Component → ℚ
  | amount sign number word =>
      sign.factor * Decimal.held (number.number * word.unit.seconds) number.places
  | clock sign hours minutes seconds => sign.factor * clockSeconds hours minutes seconds

/-- A decimal has room for all digits of the length. -/
def Exact : Component → Prop
  | amount _ number word => number.number * word.unit.seconds < Decimal.limit
  | clock .. => True

theorem heldLength_eq {c : Component} (exact : c.Exact) : c.heldLength = c.length := by
  cases c with
  | clock sign hours minutes seconds => rfl
  | amount sign number word =>
      rw [heldLength, Decimal.held_of_lt exact, length, Numeral.value]
      push_cast
      ring

/-- The length in microseconds. -/
def micros (c : Component) : ℤ :=
  roundEven (c.heldLength * 10 ^ 6)

/-- Nothing overflows while the component is read: decimals hold the numbers, 64 bits count the
microseconds, and an interval is as long as the clock. -/
def Fits : Component → Prop
  | c@(amount _ number _) => number.Fits ∧ -2 ^ 63 ≤ c.micros ∧ c.micros < 2 ^ 63
  | c@(clock _ _ _ seconds) =>
      (secondsField seconds).Fits ∧ roundEven ((secondsField seconds).value * 10 ^ 6) < 2 ^ 63 ∧
        1000 * |c.micros| ≤ longest

end Component

theorem abs_factor (sign : Sign) : |sign.factor| = 1 := by
  cases sign <;> rfl

theorem roundEven_sign (sign : Sign) (x : ℚ) :
    roundEven (sign.factor * x) = sign.factor * roundEven x := by
  cases sign <;> simp [Sign.factor, roundEven_neg]

theorem roundEven_nonneg {x : ℚ} (nonneg : 0 ≤ x) : 0 ≤ roundEven x := by
  have near := abs_sub_roundEven_le x
  rw [abs_le] at near
  have above : (-1 : ℚ) < roundEven x := by linarith
  have above : -1 < roundEven x := by exact_mod_cast above
  omega

theorem isDigit_ne {c d : Char} (digit : isDigit c = true) (other : isDigit d = false) : c ≠ d := by
  rintro rfl
  rw [digit] at other
  cases other

/-! ## Clocks -/

/-- Digits that make a number of 64 bits are read as that number. -/
theorem exists_readWord? (run : DigitRun) (small : run.value < 2 ^ 63) :
    ∃ w, readWord? run.chars = some w ∧ w.toInt = run.value := by
  have every : run.chars.all isDigit = true := List.all_eq_true.mpr run.digits
  have value : (Int64.ofInt run.value).toInt = run.value :=
    Int64.toInt_ofInt_of_le (by omega) (by omega)
  refine ⟨Int64.ofInt run.value, ?_, value⟩
  rw [readWord?, readInt?_of_digits run.digits, readNat?, every]
  simp only [List.isEmpty_iff, run.nonempty, Bool.not_true, Bool.or_false]
  exact word?_eq_some_iff.mpr value

theorem colon_ne_of_mem {run : DigitRun} : ∀ c ∈ run.chars, (c == ':') = false := fun c member =>
  beq_eq_false_iff_ne.mpr (isDigit_ne (run.digits c member) rfl)

/-- The three fields of a clock are found between the colons. -/
theorem readClockFields?_clockChars (hours minutes : DigitRun) (seconds : Option Numeral) :
    readClockFields? (clockChars hours minutes seconds) = (do
      let hours ← readWord? hours.chars
      let minutes ← readWord? minutes.chars
      let seconds ← Decimal.read? (secondsField seconds).chars
      let hours ← Interval.ofSeconds? (hours.toInt * 3600)
      let minutes ← Interval.ofSeconds? (minutes.toInt * 60)
      let whole ← hours.add? minutes
      let seconds ← Interval.ofSecondsDecimal? seconds
      whole.add? seconds) := by
  have front (run : DigitRun) (rest : List Char) :
      Text.cutAt? (· == ':') (run.chars ++ ':' :: rest) = some (run.chars, rest) := by
    rw [Text.cutAt?_append_left _ colon_ne_of_mem]
    simp [Text.cutAt?]
  cases seconds with
  | some seconds =>
      simp only [readClockFields?, clockChars, secondsChars, front, Option.bind_eq_bind,
        Option.bind_some]
      rfl
  | none =>
      simp only [readClockFields?, clockChars, secondsChars, front, Option.bind_eq_bind,
        Option.bind_some, List.append_nil, Text.cutAt?_eq_none colon_ne_of_mem]
      rfl

/-- The microseconds of the seconds are rounded, those of hours and minutes are whole. -/
theorem roundEven_clockSeconds (hours minutes : DigitRun) (seconds : Option Numeral) :
    roundEven (clockSeconds hours minutes seconds * 10 ^ 6) =
      (hours.value * 3600 + minutes.value * 60) * 10 ^ 6 +
        roundEven ((secondsField seconds).value * 10 ^ 6) := by
  rw [← roundEven_add_even _ (by omega), clockSeconds]
  congr 1
  push_cast
  ring

/-- A clock is read as its seconds, rounded to microseconds. -/
theorem exists_readClockFields? {hours minutes : DigitRun} {seconds : Option Numeral}
    (fits : (secondsField seconds).Fits)
    (small : roundEven ((secondsField seconds).value * 10 ^ 6) < 2 ^ 63)
    (short : 1000 * roundEven (clockSeconds hours minutes seconds * 10 ^ 6) ≤ longest) :
    ∃ i, readClockFields? (clockChars hours minutes seconds) = some i ∧
      i.nanos = 1000 * roundEven (clockSeconds hours minutes seconds * 10 ^ 6) := by
  rw [roundEven_clockSeconds] at short ⊢
  have natural : 0 ≤ roundEven ((secondsField seconds).value * 10 ^ 6) :=
    roundEven_nonneg (mul_nonneg (Numeral.value_nonneg _) (by positivity))
  obtain ⟨d, read, -, value⟩ := Decimal.exists_read?_numeral fits .none
  have exact : (secondsField seconds).value = d.toRat := by simp [value, Sign.factor]
  have read : Decimal.read? (secondsField seconds).chars = some d := read
  rw [exact] at natural small short ⊢
  obtain ⟨rest, foundRest, nanosRest⟩ :=
    Interval.exists_ofSecondsDecimal? ⟨by omega, small⟩
  unfold longest at short
  obtain ⟨h, hoursRead, hoursValue⟩ := exists_readWord? hours (by omega)
  obtain ⟨m, minutesRead, minutesValue⟩ := exists_readWord? minutes (by omega)
  obtain ⟨first, foundFirst, nanosFirst⟩ :=
    Interval.exists_ofNanos? (h.toInt * 3600 * 1000000000) (by unfold longest; omega)
  obtain ⟨second, foundSecond, nanosSecond⟩ :=
    Interval.exists_ofNanos? (m.toInt * 60 * 1000000000) (by unfold longest; omega)
  obtain ⟨whole, foundWhole, nanosWhole⟩ :=
    Interval.exists_ofNanos? (first.nanos + second.nanos) (by unfold longest; omega)
  obtain ⟨i, found, nanos⟩ :=
    Interval.exists_ofNanos? (whole.nanos + rest.nanos) (by unfold longest; omega)
  refine ⟨i, ?_, by omega⟩
  simp only [readClockFields?_clockChars, hoursRead, minutesRead, read, Interval.ofSeconds?,
    Interval.add?, foundFirst, foundSecond, foundWhole, foundRest, found, Option.bind_eq_bind,
    Option.bind_some]

/-- One sign is read in front of a clock. -/
theorem readSignedClock?_signed {body : List Char} (unsigned : ∀ c ∈ body.head?, c ≠ '-' ∧ c ≠ '+')
    (sign : Sign) :
    readSignedClock? (sign.chars ++ body) =
      if sign = .minus then (readClockFields? body).map Interval.negate
      else readClockFields? body := by
  have kept : body.dropWhile (· == '+') = body :=
    Text.dropWhile_of_head fun c first => beq_eq_false_iff_ne.mpr (unsigned c first).2
  cases sign with
  | minus => rfl
  | plus =>
      change readClockFields? (body.dropWhile (· == '+')) = _
      rw [kept, if_neg (by decide)]
  | none =>
      cases body with
      | nil => rfl
      | cons c body =>
          rw [if_neg (by decide), Sign.chars, List.nil_append, readSignedClock?, kept]
          rintro rest same
          exact (unsigned c rfl).1 (List.cons.inj same).1

theorem clockSeconds_nonneg (hours minutes : DigitRun) (seconds : Option Numeral) :
    0 ≤ clockSeconds hours minutes seconds :=
  add_nonneg (by positivity) (Numeral.value_nonneg _)

theorem micros_clock (sign : Sign) (hours minutes : DigitRun) (seconds : Option Numeral) :
    (Component.clock sign hours minutes seconds).micros =
      sign.factor * roundEven (clockSeconds hours minutes seconds * 10 ^ 6) := by
  rw [Component.micros, Component.heldLength, mul_assoc, roundEven_sign]

theorem abs_micros_clock (sign : Sign) (hours minutes : DigitRun) (seconds : Option Numeral) :
    |(Component.clock sign hours minutes seconds).micros| =
      roundEven (clockSeconds hours minutes seconds * 10 ^ 6) := by
  rw [micros_clock, abs_mul, abs_factor, one_mul, abs_of_nonneg]
  exact roundEven_nonneg (mul_nonneg (clockSeconds_nonneg hours minutes seconds) (by positivity))

/-- The sign of a clock is that of all its fields. -/
theorem exists_readSignedClock? {sign : Sign} {hours minutes : DigitRun} {seconds : Option Numeral}
    (fits : (Component.clock sign hours minutes seconds).Fits) :
    ∃ i, readSignedClock? (sign.chars ++ clockChars hours minutes seconds) = some i ∧
      i.nanos = 1000 * (Component.clock sign hours minutes seconds).micros := by
  obtain ⟨held, small, short⟩ := fits
  rw [abs_micros_clock] at short
  have unsigned : ∀ c ∈ (clockChars hours minutes seconds).head?, c ≠ '-' ∧ c ≠ '+' := by
    intro c first
    unfold clockChars at first
    rw [List.head?_append_of_ne_nil _ hours.nonempty] at first
    have digit := hours.digits c (List.mem_of_mem_head? first)
    exact ⟨isDigit_ne digit rfl, isDigit_ne digit rfl⟩
  obtain ⟨i, found, nanos⟩ := exists_readClockFields? held small short
  rw [readSignedClock?_signed unsigned, found, micros_clock]
  cases sign with
  | minus => exact ⟨i.negate, rfl, by simp [Interval.negate, nanos, Sign.factor]⟩
  | none | plus => exact ⟨i, rfl, by simp [nanos, Sign.factor]⟩

/-! ## Sequences of components -/

theorem readParts?_clock (total : Interval) {word : List Char} (colon : word.contains ':' = true)
    (rest : List (List Char)) :
    readParts? total (word :: rest) =
      (readSignedClock? word).bind fun clock => (total.add? clock).bind (readParts? · rest) := by
  cases rest with
  | nil =>
      rw [readParts?, if_pos colon]
      simp [readParts?]
  | cons next rest =>
      rw [readParts?, if_pos colon]
      rfl

theorem readParts?_amount (total : Interval) {word : List Char} (plain : word.contains ':' = false)
    (next : List Char) (rest : List (List Char)) :
    readParts? total (word :: next :: rest) =
      (Decimal.read? word).bind fun amount =>
        (readUnitSeconds? next).bind fun unit =>
          (amount.mul? (Decimal.ofInt unit)).bind fun seconds =>
            (Interval.ofSecondsDecimal? seconds).bind fun part =>
              (total.add? part).bind (readParts? · rest) := by
  rw [readParts?, plain, if_neg Bool.false_ne_true]
  rfl

namespace Component

variable {c : Component}

/-- There is room for a product whose microseconds 64 bits count. -/
theorem hasRoom_of_counted {sign : Sign} {number : Numeral} {word : UnitWord}
    (counted : -2 ^ 63 ≤ (amount sign number word).micros ∧
      (amount sign number word).micros < 2 ^ 63) :
    Decimal.HasRoom (number.number * word.unit.seconds) (number.places -
      Decimal.heldPlaces (number.number * word.unit.seconds) number.places) := by
  by_contra full
  have large := Decimal.limit_le_held full
  have nonneg : 0 ≤ Decimal.held (number.number * word.unit.seconds) number.places :=
    le_trans (by norm_num [Decimal.limit]) large
  have larger : (Decimal.limit : ℚ) ≤ |(amount sign number word).heldLength * 10 ^ 6| := by
    rw [heldLength, abs_mul, abs_mul, ← Int.cast_abs, abs_factor, abs_of_nonneg nonneg]
    norm_num
    linarith
  have found : word? (amount sign number word).micros = some (Int64.ofInt _) :=
    word?_eq_some_iff.mpr (Int64.toInt_ofInt_of_le counted.1 counted.2)
  rw [micros, word?_roundEven_of_large larger] at found
  cases found

/-- An amount is multiplied by the seconds of its unit, as far as the product is held. -/
theorem exists_product (sign : Sign) {number : Numeral} {word : UnitWord} (fits : number.Fits)
    (room : Decimal.HasRoom (number.number * word.unit.seconds) (number.places -
      Decimal.heldPlaces (number.number * word.unit.seconds) number.places)) :
    ∃ d product, Decimal.read? (sign.chars ++ number.chars) = some d ∧
      d.mul? (Decimal.ofInt (Int64.ofNat word.unit.seconds)) = some product ∧
        product.toRat = (amount sign number word).heldLength := by
  obtain ⟨d, read, ⟨negative, coefficient, places⟩, -⟩ := Decimal.exists_read?_numeral fits sign
  obtain ⟨unitNegative, unitCoefficient, unitPlaces⟩ := word.unit.ofInt_seconds
  rw [← coefficient, ← unitCoefficient, ← places] at room
  obtain ⟨product, found, value⟩ := Decimal.exists_mul? (a := d)
    (b := Decimal.ofInt (Int64.ofNat word.unit.seconds)) (by rw [unitPlaces]; exact d.places_le)
    (by rwa [unitPlaces])
  refine ⟨d, product, read, found, ?_⟩
  rw [value, heldLength, negative, coefficient, places, unitNegative, unitCoefficient, unitPlaces,
    Nat.add_zero]
  by_cases zero : number.number = 0
  · rw [zero, Nat.zero_mul, Decimal.held_of_lt (by decide)]
    simp
  · cases sign <;> simp [zero, Sign.factor]

theorem not_colon_of_amount {sign : Sign} {number : Numeral} :
    (sign.chars ++ number.chars).contains ':' = false := by
  rw [← Bool.not_eq_true, List.contains_iff_mem]
  intro colon
  rcases List.mem_append.mp colon with front | member
  · cases sign <;> simp [Sign.chars] at front
  · rcases Numeral.of_mem_chars member with digit | point
    · cases digit
    · cases point

theorem unblank_amount {sign : Sign} {number : Numeral} :
    ∀ c ∈ sign.chars ++ number.chars, Text.isBlank c = false := by
  intro c member
  rcases List.mem_append.mp member with front | member
  · rcases Sign.of_mem_chars c front with rfl | rfl <;> rfl
  · rcases Numeral.of_mem_chars member with digit | rfl
    · exact Text.isBlank_of_isDigit digit
    · rfl

/-- What is read of a component is added to what has been read before. -/
theorem exists_part (fits : c.Fits) : ∃ part : Interval, part.nanos = 1000 * c.micros ∧
    ∀ (total : Interval) (rest : List (List Char)),
      readParts? total (c.words ++ rest) = (total.add? part).bind (readParts? · rest) := by
  cases c with
  | clock sign hours minutes seconds =>
      obtain ⟨part, found, nanos⟩ := exists_readSignedClock? fits
      refine ⟨part, nanos, fun total rest => ?_⟩
      have colon : (sign.chars ++ clockChars hours minutes seconds).contains ':' = true := by
        simp [clockChars]
      change readParts? total ((sign.chars ++ clockChars hours minutes seconds) :: rest) = _
      rw [readParts?_clock total colon, found, Option.bind_some]
  | amount sign number word =>
      obtain ⟨numberFits, counted⟩ := fits
      obtain ⟨d, product, read, found, rat⟩ :=
        exists_product sign numberFits (hasRoom_of_counted counted)
      rw [micros, ← rat] at counted
      obtain ⟨part, foundPart, nanos⟩ := Interval.exists_ofSecondsDecimal? counted
      rw [rat] at nanos
      refine ⟨part, nanos, fun total rest => ?_⟩
      change readParts? total ((sign.chars ++ number.chars) :: word.chars :: rest) = _
      rw [readParts?_amount total not_colon_of_amount, read,
        TimeUnit.readUnitSeconds?_of_spelled word.spelled]
      simp only [Option.bind_some, found, foundPart]

end Component

/-- Nothing overflows while the components are read and added one after another. -/
structure NoOverflow (components : List Component) : Prop where
  each : ∀ c ∈ components, c.Fits
  sums : ∀ front, front <+: components → 1000 * |(front.map Component.micros).sum| ≤ longest

/-- What is read of a sequence of components is the sum. -/
theorem exists_readParts? {components : List Component} (each : ∀ c ∈ components, c.Fits)
    {total : Interval}
    (sums : ∀ front, front <+: components →
      |total.nanos + 1000 * (front.map Component.micros).sum| ≤ longest) :
    ∃ i, readParts? total (components.flatMap Component.words) = some i ∧
      i.nanos = total.nanos + 1000 * (components.map Component.micros).sum := by
  induction components generalizing total with
  | nil => exact ⟨total, by simp [readParts?], by simp⟩
  | cons c components ih =>
      rw [List.forall_mem_cons] at each
      obtain ⟨part, nanos, reads⟩ := Component.exists_part each.1
      have short := sums [c] ⟨components, rfl⟩
      rw [List.map_singleton, List.sum_singleton, ← nanos] at short
      obtain ⟨next, found, nextNanos⟩ := Interval.exists_ofNanos? _ (abs_le.mp short)
      have others : ∀ front, front <+: components →
          |next.nanos + 1000 * (front.map Component.micros).sum| ≤ longest := by
        intro front isFront
        have longer := sums (c :: front) (List.cons_prefix_cons.mpr ⟨rfl, isFront⟩)
        rwa [List.map_cons, List.sum_cons, mul_add, ← add_assoc, ← nanos, ← nextNanos] at longer
      obtain ⟨i, read, value⟩ := ih each.2 others
      refine ⟨i, ?_, ?_⟩
      · rw [List.flatMap_cons, reads, Interval.add?, found, Option.bind_some, read]
      · rw [value, nextNanos, nanos, List.map_cons, List.sum_cons, mul_add, add_assoc]

theorem stops_of_isBlank {c : Char} (blank : Text.isBlank c = true) :
    isDigit c = false ∧ c ≠ '.' ∧ c ≠ '_' ∧ c ≠ 'e' ∧ c ≠ 'E' := by
  refine ⟨?_, ?_, ?_, ?_, ?_⟩
  · rw [← Bool.not_eq_true]
    intro digit
    rw [Text.isBlank_of_isDigit digit] at blank
    cases blank
  all_goals
    rintro rfl
    cases blank

/-- A text that begins with a component is no decimal as a whole. -/
theorem read?_components {c : Component} (fits : c.Fits) {components : List Component}
    {text : List Char} (first : ∀ b ∈ text.head?, Text.isBlank b = false)
    (spaced : Text.Spaced ((c :: components).flatMap Component.words) text) :
    Decimal.read? text = none := by
  cases c with
  | clock sign hours minutes seconds =>
      obtain ⟨rest, rfl, -, -⟩ := spaced.exists_append first
      have short := fits.2.2
      have natural : 0 ≤ roundEven ((secondsField seconds).value * 10 ^ 6) :=
        roundEven_nonneg (mul_nonneg (Numeral.value_nonneg _) (by positivity))
      rw [abs_micros_clock, roundEven_clockSeconds] at short
      have small : (Numeral.ofRun hours).Fits := by
        refine ⟨Nat.zero_le _, ?_⟩
        change digitsValue (hours.chars ++ []) < 0x1000000000000000000000000
        unfold longest DigitRun.value at short
        rw [List.append_nil]
        omega
      have stopped := Decimal.read?_numeral_append small sign (c := ':')
        (minutes.chars ++ secondsChars seconds ++ rest) (by decide)
      simpa [Numeral.chars, Numeral.ofRun, clockChars] using stopped
  | amount sign number word =>
      obtain ⟨rest, rfl, others, apart⟩ := spaced.exists_append first
      cases rest with
      | nil =>
          obtain ⟨rest, none, -, -⟩ := others.exists_append (by simp)
          exact absurd (List.append_eq_nil_iff.mp none.symm).1
            (others.of_mem _ List.mem_cons_self).1
      | cons b rest =>
          exact Decimal.read?_numeral_append fits.1 sign rest (stops_of_isBlank (apart b rfl))

/-- A text is written with blanks between the words of the components. -/
structure Written (components : List Component) (text : String) : Prop where
  nonempty : components ≠ []
  spaced : Text.Spaced (components.flatMap Component.words) text.toList
  noOverflow : NoOverflow components

theorem exists_readInterval? {components : List Component} {text : String}
    (written : Written components text) :
    ∃ total, readInterval? text = some total ∧
      total.nanos = 1000 * (components.map Component.micros).sum := by
  obtain ⟨nonempty, spaced, each, sums⟩ := written
  rw [← Text.words_eq_iff, ← Text.words_trimChars] at spaced
  have short : ∀ front, front <+: components →
      |Interval.zero.nanos + 1000 * (front.map Component.micros).sum| ≤ longest := by
    intro front isFront
    change |0 + 1000 * (front.map Component.micros).sum| ≤ longest
    rw [zero_add, abs_mul]
    exact sums front isFront
  obtain ⟨total, read, nanos⟩ := exists_readParts? each short
  refine ⟨total, ?_, nanos.trans (zero_add _)⟩
  have parts : Decimal.read? (Text.trimChars text.toList) = none := by
    cases components with
    | nil => exact absurd rfl nonempty
    | cons c components =>
        exact read?_components (each c List.mem_cons_self) (Text.unblank_head_trimChars _)
          (Text.words_eq_iff.mp spaced)
  simp only [readInterval?, parts, spaced, read]

/-- Two texts with blanks between them are a text of the components of both. -/
theorem Written.append {components others : List Component} {text other gap : String}
    (written : Written components text) (written' : Written others other)
    (noOverflow : NoOverflow (components ++ others)) (nonempty : gap.toList ≠ [])
    (blank : ∀ c ∈ gap.toList, Text.isBlank c = true) :
    Written (components ++ others) (text ++ gap ++ other) where
  nonempty := by simp [written.nonempty]
  spaced := by
    rw [List.flatMap_append, String.toList_append, String.toList_append]
    exact written.spaced.append nonempty blank written'.spaced
  noOverflow := noOverflow

/-- A component whose length is a whole number of microseconds. -/
theorem Component.micros_eq {c : Component} (exact : c.Exact) {n : ℤ}
    (whole : c.length * 10 ^ 6 = n) : c.micros = n := by
  rw [micros, heldLength_eq exact, whole, roundEven_intCast]

/-- Nothing overflows if all lengths together are short enough. -/
theorem NoOverflow.of_sum {components : List Component} (each : ∀ c ∈ components, c.Fits)
    (short : 1000 * (components.map fun c => |c.micros|).sum ≤ longest) :
    NoOverflow components where
  each := each
  sums := by
    rintro front ⟨rest, rfl⟩
    have triangle : ∀ cs : List Component,
        |(cs.map Component.micros).sum| ≤ (cs.map fun c => |c.micros|).sum := fun cs => by
      induction cs with
      | nil => simp
      | cons c cs ih =>
          simp only [List.map_cons, List.sum_cons]
          exact (abs_add_le _ _).trans (Int.add_le_add_left ih _)
    have nonneg : 0 ≤ (rest.map fun c => |c.micros|).sum :=
      (abs_nonneg _).trans (triangle rest)
    rw [List.map_append, List.sum_append] at short
    have := triangle front
    omega

/-- The text of a sequence of components is read as the sum of their lengths, each rounded to whole
microseconds; the length of an amount is the product with the seconds of its unit as a decimal holds
it, which is exact if there is room for all digits.  The components of two texts with blanks between
them are added. -/
theorem interval_text_is_sum {components : List Component} {text : String}
    (written : Written components text) :
    (∃ total, readInterval? text = some total ∧
      total.nanos = 1000 * (components.map Component.micros).sum) ∧
    (∀ c ∈ components, c.Exact → c.micros = roundEven (c.length * 10 ^ 6)) ∧
    ∀ (others : List Component) (other gap : String), Written others other →
      NoOverflow (components ++ others) → gap.toList ≠ [] →
      (∀ c ∈ gap.toList, Text.isBlank c = true) →
      ∃ a b sum, readInterval? text = some a ∧ readInterval? other = some b ∧
        a.add? b = some sum ∧ readInterval? (text ++ gap ++ other) = some sum := by
  refine ⟨exists_readInterval? written, fun c _ exact => ?_, ?_⟩
  · rw [Component.micros, Component.heldLength_eq exact]
  · intro others other gap written' noOverflow nonempty blank
    obtain ⟨a, readA, nanosA⟩ := exists_readInterval? written
    obtain ⟨b, readB, nanosB⟩ := exists_readInterval? written'
    obtain ⟨sum, readSum, nanosSum⟩ :=
      exists_readInterval? (written.append written' noOverflow nonempty blank)
    refine ⟨a, b, sum, readA, readB, Interval.add?_eq_some_iff.mpr ?_, readSum⟩
    rw [nanosA, nanosB, nanosSum, List.map_append, List.sum_append, mul_add]

def minusTwoDays : Component :=
  .amount .minus ⟨['2'], none, by decide, List.all_eq_true.mp rfl⟩
    ⟨.day, "Days".toList, by decide⟩

theorem micros_minusTwoDays : minusTwoDays.micros = -172800000000 := by
  refine Component.micros_eq (c := minusTwoDays) (by decide : 2 * 86400 < Decimal.limit) ?_
  change ((-1 : ℤ) : ℚ) * ((2 : ℕ) / 10 ^ 0 * (86400 : ℕ)) * 10 ^ 6 = _
  norm_num

def halfPastOne : Component :=
  .clock .none ⟨['0', '1'], by decide, List.all_eq_true.mp rfl⟩
    ⟨['3', '0'], by decide, List.all_eq_true.mp rfl⟩ none

theorem micros_halfPastOne : halfPastOne.micros = 5400000000 := by
  refine Component.micros_eq (c := halfPastOne) trivial ?_
  change ((1 : ℤ) : ℚ) * ((1 : ℕ) * 3600 + (30 : ℕ) * 60 + (0 : ℕ) / 10 ^ 0) * 10 ^ 6 = _
  norm_num

/-- Two days back and one and a half hours forth. -/
theorem days_and_clock_are_added :
    (∃ total, readInterval? "-2 Days" = some total ∧ total.nanos = -172800000000000) ∧
      ∃ a b sum, readInterval? "-2 Days" = some a ∧ readInterval? "01:30" = some b ∧
        a.add? b = some sum ∧ readInterval? "-2 Days 01:30" = some sum := by
  have days : minusTwoDays.Fits := by
    refine ⟨⟨by decide, by decide⟩, ?_⟩
    change -2 ^ 63 ≤ minusTwoDays.micros ∧ minusTwoDays.micros < 2 ^ 63
    rw [micros_minusTwoDays]
    decide
  have clock : halfPastOne.Fits := by
    refine ⟨⟨by decide, by decide⟩, ?_, ?_⟩
    · change roundEven ((0 : ℕ) / 10 ^ 0 * 10 ^ 6) < 2 ^ 63
      norm_num
    · change 1000 * |halfPastOne.micros| ≤ longest
      rw [micros_halfPastOne]
      decide
  have first : Written [minusTwoDays] "-2 Days" :=
    ⟨by simp, Text.words_eq_iff.mp (by decide), .of_sum (by simpa using days)
      (by simp [micros_minusTwoDays, longest])⟩
  have second : Written [halfPastOne] "01:30" :=
    ⟨by simp, Text.words_eq_iff.mp (by decide), .of_sum (by simpa using clock)
      (by simp [micros_halfPastOne, longest])⟩
  have both : NoOverflow ([minusTwoDays] ++ [halfPastOne]) :=
    .of_sum (by simpa using ⟨days, clock⟩)
      (by simp [micros_minusTwoDays, micros_halfPastOne, longest])
  obtain ⟨⟨total, read, nanos⟩, -, joined⟩ := interval_text_is_sum first
  refine ⟨⟨total, read, ?_⟩, joined _ _ " " second both (by decide) (List.all_eq_true.mp rfl)⟩
  rw [nanos, List.map_singleton, List.sum_singleton, micros_minusTwoDays]
  rfl

/-- Two hours and a bit more than half a microsecond. -/
def twoHoursAndBit : Component :=
  .amount .none
    ⟨['2'], some "0000000001388888888888888889".toList, by decide, List.all_eq_true.mp rfl⟩
    ⟨.hour, "hours".toList, by decide⟩

/-- The product with the seconds of an hour has a digit too many, and without it half a microsecond
is left, which is rounded down. -/
theorem product_loses_microsecond :
    ∃ total, readInterval? "2.0000000001388888888888888889 hours" = some total ∧
      total.nanos = 7200000000000 ∧
      Written [twoHoursAndBit] "2.0000000001388888888888888889 hours" ∧
      1000 * roundEven (twoHoursAndBit.length * 10 ^ 6) = 7200000001000 := by
  have heldPlaces : Decimal.heldPlaces (20000000001388888888888888889 * 3600) 28 = 25 := by
    decide +kernel
  have kept : Decimal.roundDiv (20000000001388888888888888889 * 3600) (10 ^ (28 - 25)) =
      72000000005000000000000000000 := by decide +kernel
  have micros : twoHoursAndBit.micros = 7200000000 := by
    refine roundEven_eq (.inr ?_)
    change |((1 : ℤ) : ℚ) * Decimal.held (20000000001388888888888888889 * 3600) 28 * 10 ^ 6 -
      (7200000000 : ℤ)| = 1 / 2 ∧ _
    rw [Decimal.held, heldPlaces, kept]
    norm_num
  have exact : roundEven (twoHoursAndBit.length * 10 ^ 6) = 7200000001 := by
    refine roundEven_eq (.inl ?_)
    change |((1 : ℤ) : ℚ) * ((20000000001388888888888888889 : ℕ) / 10 ^ 28 * (3600 : ℕ)) * 10 ^ 6 -
      (7200000001 : ℤ)| < 1 / 2
    norm_num [abs_lt]
  have fits : twoHoursAndBit.Fits := by
    refine ⟨⟨by decide, by decide +kernel⟩, ?_⟩
    change -2 ^ 63 ≤ twoHoursAndBit.micros ∧ twoHoursAndBit.micros < 2 ^ 63
    rw [micros]
    decide
  have written : Written [twoHoursAndBit] "2.0000000001388888888888888889 hours" :=
    ⟨by simp, Text.words_eq_iff.mp (by decide), .of_sum (by simpa using fits)
      (by simp [micros, longest])⟩
  obtain ⟨total, read, nanos⟩ := exists_readInterval? written
  refine ⟨total, read, ?_, written, ?_⟩
  · rw [nanos, List.map_singleton, List.sum_singleton, micros]
    rfl
  · rw [exact]
    rfl

end RowQuery.Calendar
