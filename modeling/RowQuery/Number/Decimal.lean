import RowQuery.Number.Digits

/-!
# Scaled decimals

Decimal numbers with a coefficient below `2 ^ 96` and at most 28 places after
the point.  Trailing zeros are kept, so `1.50` and `1.5` are two numbers of one
value.  Operations return `none` when the result does not fit; a result with
too many digits is rounded to the nearest, a half to the even neighbour.
-/

namespace RowQuery.Number

/-- A decimal `± coefficient / 10 ^ places`. -/
structure Decimal where
  negative : Bool
  coefficient : Nat
  places : Nat
  coefficient_lt : coefficient < 0x1000000000000000000000000
  places_le : places ≤ 28
  deriving DecidableEq

namespace Decimal

/-- The first coefficient that is too large. -/
def limit : Nat := 0x1000000000000000000000000

/-- The largest number of places after the point. -/
def maxPlaces : Nat := 28

/-- Zero without places. -/
def zero : Decimal := ⟨false, 0, 0, by decide, by decide⟩

/-- The decimal with exactly these parts, if they are in range. -/
def fitting? (negative : Bool) (coefficient places : Nat) : Option Decimal :=
  if h : coefficient < limit ∧ places ≤ 28 then
    some ⟨negative, coefficient, places, h.1, h.2⟩
  else none

/-- The decimal with these parts, where a zero coefficient has no sign. -/
def make? (negative : Bool) (coefficient places : Nat) : Option Decimal :=
  fitting? (negative && coefficient != 0) coefficient places

/-- The value is zero. -/
def isZero (d : Decimal) : Bool :=
  d.coefficient == 0

/-- The coefficient with its sign. -/
def signed (d : Decimal) : Int :=
  if d.negative then -(d.coefficient : Int) else d.coefficient

/-- A fixed-width integer as a decimal with the given number of places. -/
def ofInt64 (i : Int64) (places : Nat) (small : places ≤ 28) : Decimal :=
  ⟨i.toInt < 0, i.toInt.natAbs, places, by
    have low := i.le_toInt
    have high := i.toInt_lt
    omega, small⟩

def ofInt (i : Int64) : Decimal :=
  ofInt64 i 0 (by decide)

/-- The text of the magnitude: whole digits, and the places after a point. -/
def magnitudeChars (d : Decimal) : List Char :=
  let text := padZeros (d.places + 1) (digits d.coefficient)
  if d.places = 0 then text
  else text.take (text.length - d.places) ++ '.' :: text.drop (text.length - d.places)

/-- The text of a decimal, with all its places. -/
def toText (d : Decimal) : String :=
  String.ofList (if d.negative then '-' :: d.magnitudeChars else d.magnitudeChars)

/-- The opposite number; zero changes its sign too. -/
def negate (d : Decimal) : Decimal :=
  { d with negative := !d.negative }

/-- The magnitude of a decimal. -/
def abs (d : Decimal) : Decimal :=
  { d with negative := false }

/-- The coefficients of two decimals at their larger number of places. -/
def align (a b : Decimal) : Int × Int :=
  (a.signed * (Nat.pow 10 (b.places - a.places) : Nat),
    b.signed * (Nat.pow 10 (a.places - b.places) : Nat))

def compare (a b : Decimal) : Ordering :=
  let (x, y) := align a b
  if x < y then .lt else if y < x then .gt else .eq

/-- Divide and round to the nearest, a half to the even neighbour. -/
def roundDiv (num den : Nat) : Nat :=
  let quotient := num / den
  let twice := 2 * (num % den)
  if den < twice || (twice == den && quotient % 2 == 1) then quotient + 1 else quotient

/-- The whole part; a fraction is cut off. -/
def trunc (d : Decimal) : Decimal :=
  ⟨d.negative, d.coefficient / Nat.pow 10 d.places, 0,
    Nat.lt_of_le_of_lt (Nat.div_le_self _ _) d.coefficient_lt, by decide⟩

/-- There are no nonzero digits after the point. -/
def isWhole (d : Decimal) : Bool :=
  d.coefficient % Nat.pow 10 d.places == 0

theorem roundDiv_le (num den : Nat) (large : 2 ≤ den) : roundDiv num den ≤ num := by
  have half : num / den ≤ num / 2 := Nat.div_le_div_left large (by decide)
  unfold roundDiv
  by_cases tiny : num = 0
  · subst tiny
    have : ¬ den < 0 := by omega
    have : den ≠ 0 := by omega
    simp [Nat.zero_div, Nat.zero_mod]
  · simp only []
    split <;> omega

theorem roundDiv_one (num : Nat) : roundDiv num 1 = num := by
  simp [roundDiv, Nat.mod_one]

/-- The nearest whole number, a half to the even neighbour. -/
def round (d : Decimal) : Decimal :=
  ⟨d.negative, roundDiv d.coefficient (Nat.pow 10 d.places), 0, by
    refine Nat.lt_of_le_of_lt ?_ d.coefficient_lt
    by_cases none : d.places = 0
    · simp [none, roundDiv_one]
    · refine roundDiv_le _ _ ?_
      have grown : Nat.pow 10 1 ≤ Nat.pow 10 d.places :=
        Nat.pow_le_pow_right (by decide) (by omega)
      exact Nat.le_trans (by decide) grown, by decide⟩

/-- The whole part as a fixed-width integer. -/
def toInt64? (d : Decimal) : Option Int64 :=
  word? d.trunc.signed

/-- Trailing zeros after the point are dropped from a coefficient. -/
def stripZeros (coefficient : Nat) : Nat → Nat × Nat
  | 0 => (coefficient, 0)
  | places + 1 =>
      if coefficient % 10 = 0 then stripZeros (coefficient / 10) places
      else (coefficient, places + 1)

theorem stripZeros_le (coefficient places : Nat) :
    (stripZeros coefficient places).1 ≤ coefficient ∧
      (stripZeros coefficient places).2 ≤ places := by
  induction places generalizing coefficient with
  | zero => simp [stripZeros]
  | succ places ih =>
      simp only [stripZeros]
      split
      · have step := ih (coefficient / 10)
        constructor <;> omega
      · simp

/-- The same value without trailing zeros; zero becomes plain zero. -/
def normalize (d : Decimal) : Decimal :=
  if d.coefficient = 0 then zero
  else
    let stripped := stripZeros d.coefficient d.places
    ⟨d.negative, stripped.1, stripped.2,
      Nat.lt_of_le_of_lt (stripZeros_le _ _).1 d.coefficient_lt,
      Nat.le_trans (stripZeros_le _ _).2 d.places_le⟩

/-- Drop `count` digits of a coefficient and round.  While the result is too
large one more digit is dropped, as long as there are places to give up. -/
def fitFrom (coefficient count : Nat) : Nat → Option (Nat × Nat)
  | 0 =>
      let rounded := roundDiv coefficient (Nat.pow 10 count)
      if rounded < limit then some (rounded, 0) else none
  | places + 1 =>
      let rounded := roundDiv coefficient (Nat.pow 10 count)
      if rounded < limit then some (rounded, places + 1)
      else fitFrom coefficient (count + 1) places

/-- The number of digits that certainly have to go from a coefficient of the
given length in bits. -/
def excessDigits (bits : Nat) : Nat :=
  if bits ≤ 96 then 0 else (bits - 97) * 77 / 256 + 1

/-- Bring a coefficient and its places into range by dropping digits after the
point. -/
def fit? (negative : Bool) (coefficient places : Nat) : Option Decimal :=
  let bits := if coefficient = 0 then 0 else Nat.log2 coefficient + 1
  let excess := excessDigits bits
  if places < excess then none
  else
    let count := max excess (places - maxPlaces)
    match fitFrom coefficient count (places - count) with
    | some (c, p) => make? negative c p
    | none => none

/-- Coefficients of one machine word are added in place. -/
def isShort (d : Decimal) : Bool :=
  d.coefficient ≤ halfMax

/-- A sum.  A zero operand leaves the other as it is.  A zero sum of short
coefficients keeps the sign of the first operand, any other zero sum has no
sign. -/
def add? (a b : Decimal) : Option Decimal :=
  if a.isZero then some b
  else if b.isZero then some a
  else
    let (x, y) := align a b
    let places := max a.places b.places
    let total := x + y
    if total = 0 then
      fitting? (a.negative && a.isShort && b.isShort) 0 places
    else fit? (total < 0) total.natAbs places

/-- A difference.  Zero minus zero is the second zero. -/
def sub? (a b : Decimal) : Option Decimal :=
  if a.isZero && b.isZero then some b else add? a b.negate

/-- A product.  A zero factor gives plain zero. -/
def mul? (a b : Decimal) : Option Decimal :=
  if a.isZero || b.isZero then some zero
  else
    let places := a.places + b.places
    let negative := a.negative != b.negative
    let product := a.coefficient * b.coefficient
    if a.isShort && b.isShort && maxPlaces + 19 < places then some zero
    else fit? negative product places

/-- Trailing zeros that a division drops from its result: eight at a time while
the low machine word is zero, then four, two and one when the divisibility by
the same power of two allows it. -/
def dropEights (quotient places : Nat) : Nat → Nat × Nat
  | 0 => (quotient, places)
  | fuel + 1 =>
      if quotient % (halfMax + 1) = 0 ∧ 8 ≤ places ∧ quotient % 100000000 = 0 then
        dropEights (quotient / 100000000) (places - 8) fuel
      else (quotient, places)

/-- Drop `count` zeros if `2 ^ bits` and the power of ten divide. -/
def dropSome (bits count : Nat) (q : Nat × Nat) : Nat × Nat :=
  if q.1 % Nat.pow 2 bits = 0 ∧ count ≤ q.2 ∧ q.1 % Nat.pow 10 count = 0 then
    (q.1 / Nat.pow 10 count, q.2 - count)
  else q

/-- The form of an inexact quotient with its superfluous zeros dropped. -/
def dropSuperfluous (quotient places : Nat) : Nat × Nat :=
  dropSome 1 1 (dropSome 2 2 (dropSome 4 4 (dropEights quotient places 4)))

/-- The largest number of digits, at most `count`, that a quotient can take on
without leaving the range. -/
def room (quotient : Nat) : Nat → Nat
  | 0 => 0
  | count + 1 =>
      if quotient * Nat.pow 10 (count + 1) < limit then count + 1 else room quotient count

/-- A quotient that has outgrown the range by a digit gives up one place. -/
def shrink? (quotient : Nat) (places : Int) (inexact : Bool) : Option (Nat × Int) :=
  if places ≤ 0 then none
  else
    let cut := quotient / 10
    let rest := quotient % 10
    let up := 5 < rest || (rest == 5 && (inexact || cut % 2 == 1))
    some (if up then cut + 1 else cut, places - 1)

/-- Long division: extend the quotient by up to nine digits at a time until the
division is exact or there is no room left.  A quotient that has room for fewer
than nine digits must not stay without places.  The last component tells whether
a remainder was met. -/
def divide (divisor quotient remainder : Nat) (places : Int) (met : Bool) :
    Nat → Option (Nat × Int × Bool)
  | 0 => none
  | fuel + 1 =>
      if remainder = 0 ∧ 0 ≤ places then some (quotient, places, met)
      else
        let met := met || remainder != 0
        let step :=
          if remainder = 0 then min 9 (-places).toNat
          else room quotient (min 9 (28 - places).toNat)
        if remainder ≠ 0 ∧ step < 9 ∧ places + step < 0 then none
        else if step = 0 then
          let twice := 2 * remainder
          if divisor < twice || (twice == divisor && quotient % 2 == 1) then
            if quotient + 1 < limit then some (quotient + 1, places, met)
            else (shrink? (quotient + 1) places true).map fun (q, p) => (q, p, met)
          else some (quotient, places, met)
        else
          let scaled := quotient * Nat.pow 10 step
          if limit ≤ scaled then none
          else
            let more := remainder * Nat.pow 10 step
            let next := scaled + more / divisor
            let rest := more % divisor
            let places := places + step
            if limit ≤ next then
              (shrink? next places (rest != 0)).map fun (q, p) => (q, p, met)
            else divide divisor next rest places met fuel

/-- A quotient, to at most 28 places; `none` also for a zero divisor. -/
def div? (a b : Decimal) : Option Decimal :=
  if b.isZero then none
  else if a.isZero then some zero
  else
    match divide b.coefficient (a.coefficient / b.coefficient)
        (a.coefficient % b.coefficient) ((a.places : Int) - b.places) false 64 with
    | none => none
    | some (q, places, met) =>
        let (q, p) := if met then dropSuperfluous q places.toNat else (q, places.toNat)
        make? (a.negative != b.negative) q p

/-- A remainder with the sign of the dividend; `none` for a zero divisor. -/
def rem? (a b : Decimal) : Option Decimal :=
  if b.isZero then none
  else if a.isZero then some zero
  else
    match a.abs.compare b.abs with
    | .eq => some zero
    | .lt => some a
    | .gt =>
        let (x, y) := align a.abs b.abs
        make? a.negative (x.natAbs % y.natAbs) (max a.places b.places)

/-- A power of ten by repeated squaring in double arithmetic. -/
def floatPower (result base : Float) (n : Nat) : Nat → Float
  | 0 => result
  | fuel + 1 =>
      let result := if n % 2 = 1 then result * base else result
      if n / 2 = 0 then result else floatPower result (base * base) (n / 2) fuel

/-- The double next to a decimal: whole part and fraction are converted apart,
added, and the sum is rounded to the places of the decimal.  Zero without places
has no sign. -/
def toFloat (d : Decimal) : Float :=
  let magnitude : Float :=
    if d.places = 0 then natToFloat d.coefficient
    else
      let scale := Nat.pow 10 d.places
      let whole := natToFloat (d.coefficient / scale)
      let fraction := natToFloat (d.coefficient % scale) / natToFloat scale
      if fraction == 0.0 then whole
      else
        let power := floatPower 1.0 10.0 d.places 8
        ((whole + fraction) * power).round / power
  if d.negative && !(d.isZero && d.places == 0) then -magnitude else magnitude

end Decimal

end RowQuery.Number
