import RowQuery.Number.Binary64
import RowQuery.Number.Digits
import RowQuery.Sql.Operator

/-!
# Arithmetic on values

Division is exact: that of integers gives a double.  A remainder has the sign of
the divisor for integers and doubles, that of the dividend for decimals.
Intervals are scaled to whole microseconds.
-/

namespace RowQuery

/-! ## Remainders of doubles -/

namespace Number

/-- The remainder of finite doubles with the sign of `a`, exact.  Both
magnitudes are brought to the smaller of the two exponents, where they are whole
numbers. -/
def truncatedRemainder (a b : Float) : Float :=
  if a.isNaN || b.isNaN || a.isInf then 0.0 / 0.0
  else if b.isInf then a
  else
    let l := Binary64.magnitude a
    let r := Binary64.magnitude b
    let exponent := min l.exponent r.exponent
    let rest := l.coefficient * Nat.pow 2 (l.exponent - exponent).toNat %
      (r.coefficient * Nat.pow 2 (r.exponent - exponent).toNat)
    let size := (natToFloat rest).scaleB exponent
    if Binary64.isNegative a then -size else size

/-- Shift a remainder by the divisor if their signs differ. -/
def floorFloat (remainder b : Float) : Float :=
  if remainder != 0.0 && (remainder < 0.0) != (b < 0.0) then remainder + b else remainder

/-- The remainder of doubles with the sign of `b`. -/
def floorRemainder (a b : Float) : Float :=
  floorFloat (truncatedRemainder a b) b

end Number

/-! ## Arithmetic -/

namespace Value

open RowQuery.Calendar RowQuery.Number

def divisionByZero : Fault := .value "division by zero"

/-- The fault of a result that does not fit. -/
def overflow (op : Arithmetic) : Fault := .value ("overflow in " ++ op.symbol)

/-- The fault of a date or an interval that does not fit. -/
def outOfRange (op : Arithmetic) : Fault :=
  .value ("result of " ++ op.symbol ++ " out of range")

/-- The fault of an interval that is not a 64-bit number of microseconds. -/
def intervalOutOfRange : Fault := .value "interval out of range"

/-- The fault of an operation between kinds that have none. -/
def operandFault (l : Value) (op : Arithmetic) (r : Value) : Fault :=
  .value ("unsupported operand types for " ++ op.symbol ++ ": " ++ l.kind.name ++
    " and " ++ r.kind.name)

def orFault {α : Type} (fault : Fault) (wrap : α → Value) : Option α → Outcome Value
  | some a => .ok (wrap a)
  | none => .error fault

/-- An integer that has to fit 64 bits. -/
def fitInt (op : Arithmetic) (i : Int) : Outcome Value :=
  orFault (overflow op) int (word? i)

/-- The remainder of integers; the smallest integer has none by minus one,
although it would be zero. -/
def intRemainder (a b : Int64) : Outcome Value :=
  if a = Int64.minValue ∧ b = -1 then .error (overflow .mod)
  else fitInt .mod (Int.fmod a.toInt b.toInt)

def intArithmetic (a : Int64) (op : Arithmetic) (b : Int64) : Outcome Value :=
  match op with
  | .add => fitInt op (a.toInt + b.toInt)
  | .sub => fitInt op (a.toInt - b.toInt)
  | .mul => fitInt op (a.toInt * b.toInt)
  | .div =>
      if b = 0 then .error divisionByZero
      else .ok (float (wordToFloat a / wordToFloat b))
  | .mod => if b = 0 then .error divisionByZero else intRemainder a b

def floatArithmetic (a : Float) (op : Arithmetic) (b : Float) : Outcome Value :=
  match op with
  | .add => .ok (float (a + b))
  | .sub => .ok (float (a - b))
  | .mul => .ok (float (a * b))
  | .div => if b == 0.0 then .error divisionByZero else .ok (float (a / b))
  | .mod => if b == 0.0 then .error divisionByZero else .ok (float (floorRemainder a b))

def decimalArithmetic (a : Decimal) (op : Arithmetic) (b : Decimal) : Outcome Value :=
  if (op = .div ∨ op = .mod) ∧ b.isZero then .error divisionByZero
  else
    orFault (overflow op) decimal
      (match op with
      | .add => a.add? b
      | .sub => a.sub? b
      | .mul => a.mul? b
      | .div => a.div? b
      | .mod => a.rem? b)

/-- The microseconds of an interval. -/
def wholeMicros (i : Interval) : Outcome Int64 :=
  match i.micros? with
  | some micros => .ok micros
  | none => .error intervalOutOfRange

/-- An interval times a factor, rounded to whole microseconds. -/
def scaleInterval (i : Interval) (factor : Float) : Outcome Value := do
  let micros ← wholeMicros i
  let scaled := wordToFloat micros * factor
  if scaled.isNaN || scaled.isInf || natToFloat 0x8000000000000000 ≤ scaled.abs then
    .error intervalOutOfRange
  else orFault intervalOutOfRange interval (Interval.ofMicros? scaled.round.toInt64.toInt)

/-- The quotient of two intervals. -/
def divideIntervals (a b : Interval) : Outcome Value := do
  let divisor ← wholeMicros b
  if divisor = 0 then .error divisionByZero
  else
    let micros ← wholeMicros a
    .ok (float (wordToFloat micros / wordToFloat divisor))

/-- An interval divided by a number. -/
def shrinkInterval (i : Interval) (divisor : Float) : Outcome Value :=
  if divisor == 0.0 then .error divisionByZero else scaleInterval i (1.0 / divisor)

def arithmetic (l : Value) (op : Arithmetic) (r : Value) : Outcome Value :=
  match l, op, r with
  | int a, _, int b => intArithmetic a op b
  | int a, _, float b => floatArithmetic (wordToFloat a) op b
  | float a, _, int b => floatArithmetic a op (wordToFloat b)
  | float a, _, float b => floatArithmetic a op b
  | decimal a, _, decimal b => decimalArithmetic a op b
  | decimal a, _, int b => decimalArithmetic a op (.ofInt b)
  | int a, _, decimal b => decimalArithmetic (.ofInt a) op b
  | text a, .add, text b => .ok (text (a ++ b))
  | bytes a, .add, bytes b => .ok (bytes (a ++ b))
  | date d, .add, interval i => orFault (outOfRange op) date (d.add? i)
  | interval i, .add, date d => orFault (outOfRange op) date (d.add? i)
  | date d, .sub, interval i => orFault (outOfRange op) date (d.sub? i)
  | date a, .sub, date b => orFault (outOfRange op) interval (a.since? b)
  | datetime m, .add, interval i => orFault (outOfRange op) datetime (m.add? i)
  | interval i, .add, datetime m => orFault (outOfRange op) datetime (m.add? i)
  | datetime m, .sub, interval i => orFault (outOfRange op) datetime (m.sub? i)
  | datetime a, .sub, datetime b => orFault (outOfRange op) interval (a.since? b)
  | interval a, .add, interval b => orFault (outOfRange op) interval (a.add? b)
  | interval a, .sub, interval b => orFault (outOfRange op) interval (a.sub? b)
  | interval a, .div, interval b => divideIntervals a b
  | interval i, .mul, int n => scaleInterval i (wordToFloat n)
  | interval i, .mul, float x => scaleInterval i x
  | int n, .mul, interval i => scaleInterval i (wordToFloat n)
  | float x, .mul, interval i => scaleInterval i x
  | interval i, .div, int n => shrinkInterval i (wordToFloat n)
  | interval i, .div, float x => shrinkInterval i x
  | _, _, _ => .error (operandFault l op r)

/-- The value with the other sign. -/
def negate : Value → Outcome Value
  | int i => orFault (.value "integer overflow") int (word? (-i.toInt))
  | float x => .ok (float (-x))
  | decimal d => .ok (decimal d.negate)
  | interval i => .ok (interval i.negate)
  | other => .error (.value ("bad operand type for unary -: " ++ other.kind.name))

end Value

end RowQuery
