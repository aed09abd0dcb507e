import RowQuery.Number.Decimal
import RowQuery.Text.Pieces

/-!
# Reading decimals

A decimal is written as an optional sign, digits with at most one point, and an
optional exponent of ten.  Underscores may stand between digits.  Digits after
the point that find no room round the number, and the text is not read past
them.
-/

namespace RowQuery.Number.Decimal

/-- What has been read of a plain decimal. -/
structure Progress where
  coefficient : Nat
  places : Nat
  seenPoint : Bool
  seenDigit : Bool

/-- End a number early, at the first character that finds no room. -/
def roundOff? (negative : Bool) (coefficient places : Nat) (next : Char) :
    Option Decimal :=
  if isDigit next then
    if digitOf next < 5 then make? negative coefficient places
    else if coefficient + 1 < limit then make? negative (coefficient + 1) places
    else if places = 0 then none
    else make? negative ((coefficient + 5) / 10) (places - 1)
  else if next = '_' || next = '.' then make? negative coefficient places
  else none

/-- Read the digits and the point of a number without sign and exponent. -/
def readFrom? (negative : Bool) (p : Progress) : List Char → Option Decimal
  | [] => if p.seenDigit then make? negative p.coefficient p.places else none
  | c :: rest =>
      if p.seenPoint && maxPlaces ≤ p.places then
        roundOff? negative p.coefficient p.places c
      else if isDigit c then
        let longer := p.coefficient * 10 + digitOf c
        if longer < limit then
          readFrom? negative
            ⟨longer, if p.seenPoint then p.places + 1 else 0, p.seenPoint, true⟩ rest
        else if p.seenPoint then roundOff? negative p.coefficient p.places c
        else none
      else if c = '.' && !p.seenPoint then
        readFrom? negative { p with seenPoint := true } rest
      else if c = '_' && p.seenDigit then readFrom? negative p rest
      else none

/-- Read a number with optional sign and without exponent. -/
def readPlain? : List Char → Option Decimal
  | '-' :: rest => readFrom? true ⟨0, 0, false, false⟩ rest
  | '+' :: rest => readFrom? false ⟨0, 0, false, false⟩ rest
  | text => readFrom? false ⟨0, 0, false, false⟩ text

/-- A decimal of the same digits with another number of places. -/
def withPlaces? (d : Decimal) (places : Nat) : Option Decimal :=
  fitting? d.negative d.coefficient places

/-- Multiply by a power of ten in steps of at most nineteen digits. -/
def raise? (d : Decimal) (exponent : Nat) : Option Decimal :=
  let step (d : Decimal) (n : Nat) : Option Decimal :=
    (make? false (Nat.pow 10 n) 0).bind fun power => mul? d power
  if exponent < 19 then step d exponent
  else (step d 19).bind fun raised =>
    if exponent = 19 then some raised else step raised (exponent - 19)

/-- Apply an exponent field, the text behind the letter, to a number. -/
def applyExponent? (d : Decimal) : List Char → Option Decimal
  | '-' :: rest =>
      (readBounded? halfMax rest).bind fun e =>
        if maxPlaces < e then none else d.withPlaces? (d.places + e)
  | rest =>
      (readBounded? halfMax rest).bind fun e =>
        if e ≤ d.places then d.withPlaces? (d.places - e)
        else if maxPlaces < e then none
        else (d.raise? e).map normalize

def read? (text : List Char) : Option Decimal :=
  match Text.cutAt? (fun c => c == 'e' || c == 'E') text with
  | none => readPlain? text
  | some (base, exponent) =>
      (readPlain? base).bind fun d => d.applyExponent? exponent

end RowQuery.Number.Decimal
