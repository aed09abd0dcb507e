import RowQuery.Function
import RowQuery.Text.Case

/-!
# Tests for a piece of a text

A text starts with, ends with or contains another.  In SQL this is a LIKE test
whose pattern takes the piece literally.
-/

namespace RowQuery

/-- Where the piece stands. -/
inductive Affix where
  | front
  | back
  | within
  deriving DecidableEq

namespace Affix

/-- The pattern for an escaped piece. -/
def pattern (affix : Affix) (escaped : List Char) : List Char :=
  match affix with
  | front => escaped ++ ['%']
  | back => '%' :: escaped
  | within => '%' :: (escaped ++ ['%'])

/-- The SQL for the pattern around the SQL for an escaped piece. -/
def patternText (affix : Affix) (dialect : Dialect) (escaped : String) : String :=
  let wild := dialect.quoteText "%"
  match affix with
  | front => dialect.concat escaped wild
  | back => dialect.concat wild escaped
  | within => dialect.concat (dialect.concat wild escaped) wild

/-- The test itself. -/
def holds (affix : Affix) (text piece : String) : Bool :=
  match affix with
  | front => Text.startsWith text.toList piece.toList
  | back => Text.endsWith text.toList piece.toList
  | within => Text.contains piece.toList text.toList

/-- All characters are ASCII. -/
def isAscii (text : String) : Bool :=
  text.toList.all fun c => c.toNat < 128

/-- The pattern of a piece: a literal if the piece is known, otherwise computed
by the database. -/
def pieceText? (affix : Affix) (dialect : Dialect) (piece : Sql.Fragment) : Option String :=
  match piece.constant with
  | some (.text s) =>
      some (dialect.quoteText (String.ofList (affix.pattern (Sql.escapeLike s.toList))))
  | some _ => none
  | none => some (affix.patternText dialect (dialect.escapePattern piece.sql))

def knownAscii (piece : Sql.Fragment) : Bool :=
  match piece.constant with
  | some (.text s) => isAscii s
  | _ => false

/-- The test in SQL.  A database that folds the case of ASCII letters only would
miss matches of any other piece. -/
def render? (affix : Affix) (ignoreCase : Bool) (dialect : Dialect)
    (text piece : Sql.Fragment) : Option Rendering :=
  if text.kind ≠ .text ∨ piece.kind ≠ .text then none
  else if ignoreCase && !dialect.foldsUnicode && !knownAscii piece then none
  else do
    let pattern ← affix.pieceText? dialect piece
    let (sql, exact) := dialect.like text.sql pattern ignoreCase
    let rendering ← typed? dialect sql .bool
    return { rendering with exact }

end Affix

end RowQuery
