import RowQuery.Dialect

/-!
# The generic dialect

ANSI SQL without extensions.
-/

namespace RowQuery

namespace ColumnType

/-- An integer type of so many bytes. -/
def integerOf (name : String) (bytes : Nat) : ColumnType :=
  ((ColumnType.mk name .integer [] none none none).fixedBytes bytes).withRange
    (.signed bytes)

/-- A floating type of so many binary digits. -/
def floatingOf (name : String) (digits : Nat) : ColumnType :=
  (ColumnType.mk name .float [] none none none).fixedPrecision digits

/-- A decimal type with digits and places up to a ceiling. -/
def decimalOf (name : String) (digits places : Nat) : ColumnType :=
  (ColumnType.mk name .numeric [] none none none).adjustablePrecision digits places

/-- A type of a family whose values are at most so long. -/
def longOf (name : String) (family : Family) (bytes : Nat) : ColumnType :=
  (ColumnType.mk name family [] none none none).fixedBytes bytes

/-- A type of a family whose declarations give a length up to a ceiling. -/
def varyingOf (name : String) (family : Family) (max : Nat) : ColumnType :=
  (ColumnType.mk name family [] none none none).adjustableBytes max 255

/-- A type of a family without limits. -/
def plainOf (name : String) (family : Family) : ColumnType :=
  ColumnType.mk name family [] none none none

end ColumnType

namespace Dialect

open ColumnType

/-- The types of the generic dialect. -/
def ansiTypes : TypeCatalog where
  name := "generic"
  registered := [
    plainOf "BOOLEAN" .boolean,
    integerOf "SMALLINT" 2,
    (integerOf "INTEGER" 4).withSynonyms ["int"],
    integerOf "BIGINT" 8,
    floatingOf "REAL" 24,
    (floatingOf "DOUBLE PRECISION" 53).withSynonyms ["double", "float"],
    (decimalOf "NUMERIC" 38 38).withSynonyms ["decimal"],
    (varyingOf "VARCHAR" .varchar 32672).withSynonyms ["character varying"],
    (longOf "CLOB" .varchar 0x80000000).withSynonyms ["text", "character large object"],
    (varyingOf "VARBINARY" .binary 32672).withSynonyms ["binary varying"],
    (longOf "BLOB" .binary 0x80000000).withSynonyms ["binary large object"],
    plainOf "DATE" .date,
    plainOf "TIME" .time,
    plainOf "TIMESTAMP" .datetime]

def ansi : Dialect where
  name := "generic"
  types := ansiTypes

end Dialect

end RowQuery
