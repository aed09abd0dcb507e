import RowQuery.Value

/-!
# Operators

The comparison and arithmetic operators of expressions, and the kinds of
operands that they take.
-/

namespace RowQuery

/-- The comparison operators. -/
inductive Comparison where
  | eq
  | ne
  | lt
  | le
  | gt
  | ge
  deriving DecidableEq

namespace Comparison

/-- The operator as expressions print it. -/
def symbol : Comparison → String
  | eq => "=="
  | ne => "!="
  | lt => "<"
  | le => "<="
  | gt => ">"
  | ge => ">="

def all : List Comparison := [eq, ne, lt, le, gt, ge]

/-- The operator of a symbol. -/
def ofSymbol? (symbol : String) : Option Comparison :=
  all.find? fun op => op.symbol = symbol

/-- The operator in SQL. -/
def sql : Comparison → String
  | eq => "="
  | ne => "<>"
  | lt => "<"
  | le => "<="
  | gt => ">"
  | ge => ">="

/-- The operator that gives the same answer with the operands swapped. -/
def swapped : Comparison → Comparison
  | eq => eq
  | ne => ne
  | lt => gt
  | le => ge
  | gt => lt
  | ge => le

/-- The operator only tells equal from unequal. -/
def isEquality : Comparison → Bool
  | eq | ne => true
  | _ => false

/-- The operator holds of operands in this order; operands without an order are
unequal. -/
def holds : Comparison → Option Ordering → Bool
  | eq, o => o == some .eq
  | ne, o => o != some .eq
  | lt, o => o == some .lt
  | le, o => o == some .lt || o == some .eq
  | gt, o => o == some .gt
  | ge, o => o == some .gt || o == some .eq

theorem holds_swapped (c : Comparison) (o : Option Ordering) :
    c.swapped.holds (o.map Ordering.swap) = c.holds o := by
  cases c <;> rcases o with _ | (_ | _ | _) <;> rfl

/-- Values of these kinds can be compared. -/
def accepts (op : Comparison) (l r : Kind) : Bool :=
  if l.isNumeric && r.isNumeric then true
  else
    match l, r with
    | .bool, .bool | .text, .text | .bytes, .bytes => true
    | .date, .date | .time, .time | .datetime, .datetime | .interval, .interval => true
    | .json, .json | .list, .list => op.isEquality
    | _, _ => false

end Comparison

/-- The arithmetic operators.  Division is exact: that of integers gives a
double. -/
inductive Arithmetic where
  | add
  | sub
  | mul
  | div
  | mod
  deriving DecidableEq

namespace Arithmetic

/-- The operator in expressions and in SQL. -/
def symbol : Arithmetic → String
  | add => "+"
  | sub => "-"
  | mul => "*"
  | div => "/"
  | mod => "%"

def all : List Arithmetic := [add, sub, mul, div, mod]

/-- The operator of a symbol. -/
def ofSymbol? (symbol : String) : Option Arithmetic :=
  all.find? fun op => op.symbol = symbol

/-- The kind of the result, if operands of these kinds have one. -/
def resultKind (l : Kind) (op : Arithmetic) (r : Kind) : Option Kind :=
  match l, op, r with
  | .int, .div, .int => some .float
  | .int, _, .int => some .int
  | .int, _, .float | .float, _, .int | .float, _, .float => some .float
  | .decimal, _, .int | .decimal, _, .decimal | .int, _, .decimal => some .decimal
  | .text, .add, .text => some .text
  | .bytes, .add, .bytes => some .bytes
  | .date, .add, .interval | .date, .sub, .interval | .interval, .add, .date => some .date
  | .date, .sub, .date => some .interval
  | .datetime, .add, .interval | .datetime, .sub, .interval
  | .interval, .add, .datetime => some .datetime
  | .datetime, .sub, .datetime => some .interval
  | .interval, .add, .interval | .interval, .sub, .interval => some .interval
  | .interval, .div, .interval => some .float
  | .interval, .mul, .int | .interval, .mul, .float
  | .interval, .div, .int | .interval, .div, .float => some .interval
  | .int, .mul, .interval | .float, .mul, .interval => some .interval
  | _, _, _ => none

end Arithmetic

end RowQuery
