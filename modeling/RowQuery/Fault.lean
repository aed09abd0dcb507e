import RowQuery.Number.Digits

/-!
# Faults

Why an operation of the library fails.  A part of a restriction that has no SQL
form is not a fault: the compiler weakens the restriction instead.
-/

namespace RowQuery

/-- The causes of a failed operation. -/
inductive Fault where
  /-- A restriction had to be translated exactly and could not be. -/
  | inexact (text : String)
  /-- No column type is large enough. -/
  | capacity (text : String)
  /-- Nothing joins two tables. -/
  | noPath (near far : String)
  /-- A table, column or type name is unknown. -/
  | unmapped (text : String)
  /-- An ordering comparison with NULL. -/
  | nullOrdering (text : String)
  /-- A name is used twice. -/
  | duplicate (text : String)
  /-- A name belongs to the database system. -/
  | reserved (text : String)
  /-- An expression and its rows do not line up. -/
  | arity (expected found : Nat)
  /-- Any other misuse of the library. -/
  | misuse (text : String)
  /-- A value cannot be encoded, decoded or computed. -/
  | value (text : String)
  /-- The database system or the library has no such feature. -/
  | unsupported (text : String)
  /-- The object is gone. -/
  | dropped (text : String)
  /-- A schema change is in progress. -/
  | locked (text : String)
  /-- The database refused or lost the connection. -/
  | connection (text : String)
  /-- The settings are wrong. -/
  | configuration (text : String)
  deriving DecidableEq

/-- A computation that may end in a fault. -/
abbrev Outcome := Except Fault

namespace Fault

/-- The words of a fault. -/
def message : Fault → String
  | inexact text => "Translation error: " ++ text
  | capacity text => "Capacity error: " ++ text
  | noPath near far => "Reference error: no path between " ++ near ++ " and " ++ far
  | unmapped text => "Mapping error: " ++ text
  | nullOrdering text =>
      "Illegal NULL comparison: only == and != may compare with None (" ++ text ++ ")"
  | duplicate text => "Duplicate identifier: " ++ text
  | reserved text => "Reserved identifier: " ++ text
  | arity expected found =>
      "Arity mismatch: expression takes " ++ Number.natText expected ++
        " row(s), relation provides " ++ Number.natText found
  | misuse text => "Programmer error: " ++ text
  | value text => "Value error: " ++ text
  | unsupported text => "Unsupported: " ++ text
  | dropped text => "Object has been dropped: " ++ text
  | locked text => "Locked: " ++ text
  | connection text => "Connection error: " ++ text
  | configuration text => "Configuration error: " ++ text

/-- Faults that come from misuse of the library rather than from data. -/
def isMisuse : Fault → Bool
  | nullOrdering _ | duplicate _ | reserved _ | arity _ _ | misuse _ => true
  | _ => false

end Fault

end RowQuery
