import RowQuery.Number.Digits

/-!
# Double-precision numbers as text

The shortest decimal that reads back as a given double, its three written
forms, and reading.  A finite double is `coefficient * 2 ^ exponent`; of the
decimals that round to it the one with the fewest digits is taken, and of those
the nearest.  Two of them can be equally near; the written forms differ in which
of the two they take.
-/

namespace RowQuery.Number.Binary64

/-- The magnitude of a finite double: `coefficient * 2 ^ exponent`. -/
structure Magnitude where
  coefficient : Nat
  exponent : Int
  /-- The next smaller double is only half as far away as the next larger. -/
  narrowBelow : Bool
  deriving DecidableEq

/-- A decimal magnitude `digits * 10 ^ exponent`. -/
structure Shortest where
  digits : Nat
  exponent : Int
  deriving DecidableEq

/-- Which of two neighbouring decimals is taken when both are equally near. -/
inductive MiddleRule where
  /-- The larger one. -/
  | upper
  /-- The one with an even last digit. -/
  | even
  deriving DecidableEq

/-- The rule takes the lower neighbour, whose digits are `below`. -/
def MiddleRule.takesLower (rule : MiddleRule) (below : Nat) : Bool :=
  match rule with
  | .upper => false
  | .even => below % 2 == 0

/-- The sign bit is set. -/
def isNegative (x : Float) : Bool :=
  0x8000000000000000 ≤ x.toBits.toNat

/-- The leading bit of a normal double, which its bits leave out. -/
def hiddenBit : Nat := 0x10000000000000

/-- The magnitude that the bits of a finite double stand for. -/
def magnitude (x : Float) : Magnitude :=
  let bits := x.toBits.toNat
  let biased := bits / hiddenBit % 0x800
  let fraction := bits % hiddenBit
  if biased = 0 then ⟨fraction, -1074, false⟩
  else ⟨hiddenBit + fraction, Int.ofNat biased - 1075, fraction == 0 && biased != 1⟩

/-- Drop trailing zeros of a decimal magnitude. -/
def dropZeros (digits : Nat) (exponent : Int) : Shortest :=
  if _ : digits ≠ 0 ∧ digits % 10 = 0 then dropZeros (digits / 10) (exponent + 1)
  else ⟨digits, exponent⟩
termination_by digits
decreasing_by omega

/-- `n * 10 ^ e` as a fraction of natural numbers. -/
def scaleByTen (n : Nat) (e : Int) : Nat × Nat :=
  if 0 ≤ e then (n * Nat.pow 10 e.toNat, 1) else (n, Nat.pow 10 (-e).toNat)

/-- The decimal with `count` digits nearest to `value / unit` whose distance is
within the rounding interval, if there is one.  `top` is the exponent of the
first power of ten above the value. -/
def onGrid? (rule : MiddleRule) (low value high unit : Nat) (closed : Bool) (top : Int)
    (count : Nat) : Option Shortest :=
  let exponent := top - count
  let (num, den) := scaleByTen unit exponent
  let below := value * den / num
  let inside (d : Nat) : Bool :=
    if closed then low * den ≤ d * num && d * num ≤ high * den
    else low * den < d * num && d * num < high * den
  let belowGap := value * den - below * num
  let aboveGap := (below + 1) * num - value * den
  let lower :=
    belowGap < aboveGap || (belowGap == aboveGap && rule.takesLower below)
  if inside below && (!inside (below + 1) || lower) then
    some (dropZeros below exponent)
  else if inside (below + 1) then some (dropZeros (below + 1) exponent)
  else none

/-- The least number of digits, counted up from `count`, whose grid meets the
rounding interval. -/
def firstGrid (rule : MiddleRule) (low value high unit : Nat) (closed : Bool) (top : Int)
    (count : Nat) : Nat → Shortest
  | 0 => ⟨0, 0⟩
  | fuel + 1 =>
      match onGrid? rule low value high unit closed top count with
      | some found => found
      | none => firstGrid rule low value high unit closed top (count + 1) fuel

/-- The shortest decimal that rounds to a magnitude.  Seventeen digits always
suffice. -/
def shortest (rule : MiddleRule) (m : Magnitude) : Shortest :=
  if m.coefficient = 0 then ⟨0, 0⟩
  else
    let quarter := m.exponent - 2
    let (scale, unit) :=
      if 0 ≤ quarter then (Nat.pow 2 quarter.toNat, 1) else (1, Nat.pow 2 (-quarter).toNat)
    let value := 4 * m.coefficient * scale
    let low := value - (if m.narrowBelow then 1 else 2) * scale
    let high := value + 2 * scale
    let top : Int :=
      if unit ≤ value then digitCount (value / unit)
      else 1 - (digitCount ((unit + value - 1) / value - 1) : Int)
    firstGrid rule low value high unit (m.coefficient % 2 == 0) top 1 18

/-- Digits written positionally, with at least `least` digits after the
point. -/
def positional (s : Shortest) (least : Nat) : List Char :=
  let text := digits s.digits
  let (whole, fraction) :=
    if 0 ≤ s.exponent then (text ++ List.replicate s.exponent.toNat '0', [])
    else
      let places := (-s.exponent).toNat
      let padded := padZeros (places + 1) text
      (padded.take (padded.length - places), padded.drop (padded.length - places))
  let fraction := fraction ++ List.replicate (least - fraction.length) '0'
  if fraction.isEmpty then whole else whole ++ '.' :: fraction

/-- Digits written with an exponent of ten, one digit before the point.  A positive
exponent gets the sign `plus`. -/
def scientific (s : Shortest) (plus : List Char) : List Char :=
  let text := digits s.digits
  let exponent := s.exponent + text.length - 1
  let mantissa :=
    match text with
    | [] => []
    | [d] => [d]
    | d :: more => d :: '.' :: more
  mantissa ++ 'e' :: ((if 0 ≤ exponent then plus else []) ++ (intText exponent).toList)

/-- The exponent of the first power of ten above a magnitude. -/
def leading (s : Shortest) : Int :=
  s.exponent + (digits s.digits).length

/-- Write a double: special values by name, finite ones by `finite`. -/
def write (rule : MiddleRule) (finite : Shortest → List Char) (x : Float) : String :=
  if x.isNaN then "NaN"
  else
    let sign := if isNegative x then "-" else ""
    if x.isInf then sign ++ "inf"
    else sign ++ String.ofList (finite (shortest rule (magnitude x)))

/-- The exact form: positional from `0.0001` up to below `10 ^ 16` with at
least one digit after the point, otherwise with an exponent. -/
def exactText (x : Float) : String :=
  write .upper (fun s =>
    if s.digits = 0 || (-3 ≤ leading s && leading s ≤ 16) then positional s 1
    else scientific s []) x

/-- The plain form: always positional, and without a point for whole numbers. -/
def plainText (x : Float) : String :=
  write .upper (fun s => positional s 0) x

/-- The form of a number in a document: positional from `0.00001` up to below
`10 ^ 16` with at least one digit after the point, otherwise with a signed
exponent. -/
def documentText (x : Float) : String :=
  write .even (fun s =>
    if s.digits = 0 || (-4 ≤ leading s && leading s ≤ 16) then positional s 1
    else scientific s ['+']) x

/-- The double nearest to `digits * 10 ^ exponent`. -/
def ofDecimal (negative : Bool) (digits : Nat) (exponent : Int) : Float :=
  let size : Int := digitCount digits + exponent
  let magnitude : Float :=
    if digits = 0 || size < -400 then 0.0
    else if size > 400 then 1.0 / 0.0
    else if 0 ≤ exponent then Float.ofScientific digits false exponent.toNat
    else Float.ofScientific digits true (-exponent).toNat
  if negative then -magnitude else magnitude

/-- The value of an exponent field without its letter. -/
def readExponent? : List Char → Option Int
  | '-' :: rest => (readNat? rest).map fun n => -(n : Int)
  | '+' :: rest => (readNat? rest).map fun n => (n : Int)
  | rest => (readNat? rest).map fun n => (n : Int)

/-- Read an unsigned decimal number with optional point and exponent.  At least
one digit stands before or after the point. -/
def readUnsigned? (negative : Bool) (text : List Char) : Option Float :=
  let whole := text.takeWhile isDigit
  let rest := text.dropWhile isDigit
  let (fraction, rest) :=
    match rest with
    | '.' :: more => (more.takeWhile isDigit, more.dropWhile isDigit)
    | _ => ([], rest)
  let value := digitsValue (whole ++ fraction)
  if whole.isEmpty && fraction.isEmpty then none
  else
    match rest with
    | [] => some (ofDecimal negative value (-(fraction.length : Int)))
    | c :: more =>
        if c = 'e' || c = 'E' then
          (readExponent? more).map fun e => ofDecimal negative value (e - fraction.length)
        else none

/-- Read a double: an optional sign, then a decimal number, `inf`, `infinity`
or `nan` in any case. -/
def read? (text : List Char) : Option Float :=
  let (negative, body) :=
    match text with
    | '-' :: rest => (true, rest)
    | '+' :: rest => (false, rest)
    | _ => (false, text)
  match readUnsigned? negative body with
  | some x => some x
  | none =>
      let name := String.ofList (body.map Char.toLower)
      if name = "inf" || name = "infinity" then
        some (if negative then -(1.0 / 0.0) else 1.0 / 0.0)
      else if name = "nan" then some (0.0 / 0.0)
      else none

end RowQuery.Number.Binary64
