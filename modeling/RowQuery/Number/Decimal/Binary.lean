import RowQuery.Number.Binary64
import RowQuery.Number.Decimal

/-!
# Doubles as decimals

The decimal of a finite double, to about sixteen significant digits.  The
binary exponent is traded for a decimal one step by step, in 96 bits; digits
below the precision of a double are then rounded away.
-/

namespace RowQuery.Number.Decimal

/-- A coefficient and its power of ten. -/
abbrev Scaled := Nat × Int

/-- Turn `c * 2 ^ -n` into a coefficient and a power of ten: halve an even
coefficient, otherwise multiply by five while there is room. -/
def fromHalves (c : Nat) (exponent : Int) : Nat → Scaled
  | 0 => (c, exponent)
  | n + 1 =>
      if c % 2 = 0 then fromHalves (c / 2) (exponent + 1) n
      else if c * 5 < limit then fromHalves (c * 5) exponent n
      else fromHalves (c / 2) (exponent + 1) n

/-- Turn `c * 2 ^ n` into a coefficient and a power of ten: double while there
is room, otherwise divide by five. -/
def fromDoubles (c : Nat) (exponent : Int) : Nat → Scaled
  | 0 => (c, exponent)
  | n + 1 =>
      if c * 2 < limit then fromDoubles (c * 2) (exponent - 1) n
      else fromDoubles (c / 5) exponent n

/-- Multiply a positive power of ten into the coefficient. -/
def absorb? (c : Nat) : Nat → Option Nat
  | 0 => some c
  | n + 1 => if c * 10 < limit then absorb? (c * 10) n else none

/-- Divide by ten, a half rounded up. -/
def tenth (c : Nat) : Nat :=
  if 5 ≤ c % 10 then c / 10 + 1 else c / 10

/-- Drop digits below the last place that a decimal can have. -/
def dropLowPlaces (c : Nat) : Nat → Nat × Nat
  | 0 => (c, maxPlaces)
  | n + 1 =>
      if c / 10 = 0 then (0, 0) else dropLowPlaces (tenth c) n

/-- Drop digits after the point that are below the precision of a double. -/
def dropNoise (c : Nat) : Nat → Nat × Nat
  | 0 => (c, 0)
  | places + 1 =>
      if Binary64.hiddenBit ≤ c then dropNoise (tenth c) places else (c, places + 1)

/-- The decimal of a double; `none` if it is not finite or too large. -/
def ofFloat? (x : Float) : Option Decimal :=
  if x.isNaN || x.isInf then none
  else
    let negative := Binary64.isNegative x
    let m := Binary64.magnitude x
    if m.coefficient = 0 then fitting? negative 0 0
    else
      let (c, exponent) :=
        if m.exponent ≤ 0 then
          fromHalves m.coefficient m.exponent (-m.exponent).toNat
        else fromDoubles m.coefficient m.exponent m.exponent.toNat
      if 0 < exponent then
        (absorb? c exponent.toNat).bind fun c => fitting? negative c 0
      else
        let places := (-exponent).toNat
        let (c, places) :=
          if maxPlaces < places then dropLowPlaces c (places - maxPlaces)
          else (c, places)
        let (c, places) := dropNoise c places
        let (c, places) := stripZeros c places
        fitting? negative c places

end RowQuery.Number.Decimal
