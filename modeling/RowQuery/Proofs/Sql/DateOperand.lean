import RowQuery.Proofs.Calendar.Instant
import RowQuery.Proofs.Calendar.Reading
import RowQuery.Proofs.Kind.Piece
import RowQuery.Proofs.Sql.TextExpression

/-!
# Dates and intervals in SQL

Columns and literals of dates and intervals are read as quantities, in the spelling of each
database.  Databases other than PostgreSQL write an interval as a number of seconds, whose minus
sign must not stand next to another one.
-/

namespace RowQuery

open Calendar Number Sql

namespace Sql

/-- A reader of expressions: the value and what is left. -/
abbrev ReaderOf (α : Type) := List Char → Option (α × List Char)

/-- A reader finds a value in a text, or none, whatever follows behind a separator. -/
def Scans {α : Type} (reader : ReaderOf α) (sql : String) (value : Option α) : Prop :=
  ∀ rest, Lexer.Separated rest → reader (sql.toList ++ rest) = value.map (·, rest)

theorem separated_behind (text : String) {c : Char} (head : text.toList.head? = some c)
    (separator : c = ' ' ∨ c = ')' ∨ c = ',') (rest : List Char) :
    Lexer.Separated (text.toList ++ rest) := by
  obtain ⟨more, letters⟩ := List.head?_eq_some_iff.1 head
  rw [letters]
  intro c' first
  exact Option.some.inj first ▸ separator

/-- A date, or a length of time in nanoseconds. -/
inductive Quantity where
  | day (date : Date)
  | span (nanos : Int)

namespace Quantity

/-- The kind of its values. -/
def kind : Quantity → Kind
  | day _ => .date
  | span _ => .interval

def negate? : Quantity → Option Quantity
  | span nanos => some (span (-nanos))
  | day _ => none

end Quantity

section Signs

variable {operand : ReaderOf Quantity} {sql : String} {quantity : Quantity} {nanos : Int}
variable {text : List Char}

/-- Read an operand behind a minus sign or without one.  Two signs would begin a comment. -/
def readSigned (operand : ReaderOf Quantity) : ReaderOf Quantity
  | '-' :: text =>
      if text.head? = some '-' then none
      else do
        let (quantity, rest) ← operand text
        return (← quantity.negate?, rest)
  | text => operand text

theorem readSigned_of_head (other : text.head? ≠ some '-') :
    readSigned operand text = operand text := by
  unfold readSigned
  split
  · exact absurd rfl other
  · rfl

theorem head?_append_of_separated {letters rest : List Char} (unsigned : letters.head? ≠ some '-')
    (separated : Lexer.Separated rest) : (letters ++ rest).head? ≠ some '-' := by
  cases letters with
  | nil =>
      intro minus
      rcases separated '-' minus with same | same | same <;> cases same
  | cons c letters => exact unsigned

/-- An operand without a sign. -/
theorem reads_unsigned (unsigned : sql.toList.head? ≠ some '-')
    (reads : Scans operand sql (some quantity)) :
    Scans (readSigned operand) sql (some quantity) := by
  intro rest separated
  rw [readSigned_of_head (head?_append_of_separated unsigned separated)]
  exact reads rest separated

/-- A minus sign in front of an operand that has none. -/
theorem reads_opposite (unsigned : sql.toList.head? ≠ some '-')
    (span : Scans (readSigned operand) sql (some (.span nanos))) :
    Scans (readSigned operand) ("-" ++ sql) (some (.span (-nanos))) := by
  intro rest separated
  have other := head?_append_of_separated unsigned separated
  have read := span rest separated
  rw [readSigned_of_head other] at read
  have letters : ("-" ++ sql).toList ++ rest = '-' :: (sql.toList ++ rest) := by simp
  rw [letters, readSigned, if_neg other, read]
  rfl

end Signs

/-- The characters of a number without a sign. -/
def isNumberChar (c : Char) : Bool :=
  isDigit c || c == '.'

/-- Read a number of seconds without a sign. -/
def readSeconds : ReaderOf Quantity := fun text => do
  let seconds ← Decimal.read? (text.takeWhile isNumberChar)
  let nanos ← seconds.nanos?
  return (.span nanos, text.dropWhile isNumberChar)

theorem isNumberChar_of_mem {d : Decimal} {c : Char} (member : c ∈ d.magnitudeChars) :
    isNumberChar c = true := by
  rcases Decimal.of_mem_magnitudeChars member with digit | rfl
  · simp [isNumberChar, digit]
  · rfl

theorem reads_magnitude (d : Decimal) {nanos : Int} (found : d.abs.nanos? = some nanos)
    {rest : List Char} (separated : Lexer.Separated rest) :
    readSeconds (d.magnitudeChars ++ rest) = some (.span nanos, rest) := by
  have each : ∀ c ∈ d.magnitudeChars, isNumberChar c = true := fun c => isNumberChar_of_mem
  have ends : ∀ c ∈ rest.head?, isNumberChar c = false := by
    intro c first
    rcases separated c first with rfl | rfl | rfl <;> rfl
  have none : rest.takeWhile isNumberChar = [] := by
    cases rest with
    | nil => rfl
    | cons c rest => simp [ends c rfl]
  obtain ⟨d', read, signed, places⟩ := d.abs.exists_read?_signed
  have letters : d.abs.toText.toList = d.magnitudeChars := Decimal.toList_toText d.abs
  rw [letters] at read
  have value : d'.nanos? = some nanos := by
    rw [← found, Decimal.nanos?, Decimal.nanos?, signed, places]
  rw [readSeconds, List.takeWhile_append_of_pos each, List.dropWhile_append_of_pos each, none,
    List.append_nil, Text.dropWhile_of_head ends, read]
  simp [value]

theorem magnitudeChars_head (d : Decimal) :
    ∃ c text, d.magnitudeChars = c :: text ∧ isNumberChar c = true := by
  obtain ⟨whole, fraction, -, present, -, written⟩ := d.magnitudeChars_eq
  cases letters : d.magnitudeChars with
  | nil =>
      rw [letters] at written
      split at written
      · exact absurd written.symm present
      · simp at written
  | cons c text => exact ⟨c, text, rfl, isNumberChar_of_mem (letters ▸ List.mem_cons_self)⟩

/-- The seconds of an interval are read where numbers are, with their sign. -/
theorem reads_seconds (operand : ReaderOf Quantity)
    (numbers : ∀ c text, isNumberChar c = true → operand (c :: text) = readSeconds (c :: text))
    (i : Interval) : Scans (readSigned operand) i.seconds.toText (some (.span i.written)) := by
  intro rest separated
  have value := i.seconds.nanos?_abs
  rw [i.nanos?_seconds, Option.map_some] at value
  have read := reads_magnitude i.seconds value separated
  obtain ⟨c, text, letters, digit⟩ := magnitudeChars_head i.seconds
  have unsigned : c ≠ '-' := by
    rintro rfl
    cases digit
  have number := numbers c (text ++ rest) digit
  rw [letters, List.cons_append] at read
  rw [Decimal.toList_toText]
  cases sign : i.seconds.negative with
  | false =>
      simp only [sign, Bool.false_eq_true, if_false, letters, List.cons_append] at read ⊢
      rw [readSigned_of_head (by simpa using unsigned), number, read]
      rfl
  | true =>
      simp only [sign, if_true, letters, List.cons_append] at read ⊢
      rw [readSigned, if_neg (by simpa using unsigned), number, read]
      simp [Quantity.negate?]

end Sql

namespace BuiltinDialect

/-- What stands before the text of a date. -/
def dateKeyword : BuiltinDialect → String
  | sqlite => ""
  | ansi | postgres | mysql => "DATE "

variable (d : BuiltinDialect) (row : List Char → Option Quantity)

/-- Read the literal of a date. -/
def readDateLiteral : ReaderOf Quantity := fun text => do
  let (content, rest) ← d.textQuotation.read (← expect d.dateKeyword text)
  let date ← readDate? (String.ofList content)
  return (.day date, rest)

/-- Read the literal of an interval. -/
def readSpanLiteral : ReaderOf Quantity := fun text =>
  if d = postgres then do
    let (content, rest) ← d.textQuotation.read (← expect "INTERVAL " text)
    let (quantity, unit) ← readSigned readSeconds content
    if unit = " seconds".toList then some (quantity, rest) else none
  else readSeconds text

/-- Read a column of a row or a literal. -/
def readQuantity : ReaderOf Quantity := fun text =>
  match d.nameQuotation.read text with
  | some (name, rest) => (row name).map (·, rest)
  | none => (d.readDateLiteral text).orElse fun _ => d.readSpanLiteral text

variable {d row}

theorem unmarked_of_separated {rest : List Char} (separated : Lexer.Separated rest) :
    rest.head? ≠ some d.nameQuotation.mark ∧ rest.head? ≠ some d.textQuotation.mark := by
  constructor <;> intro first <;> rcases separated _ first with same | same | same <;>
    cases d <;> cases same

theorem reads_column {name : String} {quantity : Quantity}
    (present : row name.toList = some quantity) :
    Scans (readSigned (d.readQuantity row)) (d.dialect.quoteName name) (some quantity) := by
  have encloses := d.quoteName_encloses name
  refine reads_unsigned ?_ fun rest separated => ?_
  · rw [encloses]
    cases d <;> simp [nameQuotation, Dialect.backquote]
  · rw [readQuantity, encloses.read_eq (unmarked_of_separated separated).1]
    simp [present]

theorem dateLiteral_eq (date : Date) :
    d.dialect.dateLiteral date = d.dateKeyword ++ ("'" ++ date.toText ++ "'") := by
  cases d with
  | sqlite =>
      have quoted := sqlite.quoteText_encloses date.toText
      have bare := (IsBare.date date).encloses sqlite
      have unmarked : sqlite.dateKeyword ++ ("'" ++ date.toText ++ "'") =
          "'" ++ date.toText ++ "'" := String.empty_append
      rw [unmarked]
      exact String.toList_inj.1 (quoted.trans bare.symm)
  | ansi | postgres | mysql =>
      change "DATE '" ++ date.toText ++ "'" = "DATE " ++ ("'" ++ date.toText ++ "'")
      rw [← String.append_assoc, ← String.append_assoc]
      rfl

theorem reads_date (date : Date) :
    Scans (readSigned (d.readQuantity row)) (d.dialect.dateLiteral date) (some (.day date)) := by
  have encloses := (IsBare.date date).encloses d
  have unnamed (text : List Char) :
      d.nameQuotation.read ((d.dateKeyword ++ ("'" ++ date.toText ++ "'")).toList ++ text) =
        none := by
    cases d <;> simp [dateKeyword, nameQuotation, Quotation.read, Dialect.backquote]
  rw [dateLiteral_eq]
  refine reads_unsigned (by cases d <;> simp [dateKeyword]) fun rest separated => ?_
  have read := encloses.read_eq (unmarked_of_separated separated).2
  rw [readQuantity, unnamed, readDateLiteral, String.toList_append, List.append_assoc,
    expect_append]
  simp only [Option.bind_eq_bind, Option.bind_some, read, String.ofList_toList, readDate?_toText]
  rfl

/-- The literal of an interval. -/
def spanText (d : BuiltinDialect) (i : Interval) : String :=
  if d = postgres then "INTERVAL " ++ ("'" ++ (i.seconds.toText ++ " seconds") ++ "'")
  else i.seconds.toText

/-- On PostgreSQL the number stands between quotation marks, with its unit. -/
theorem reads_native (i : Interval) :
    Scans (readSigned (postgres.readQuantity row)) (postgres.spanText i)
      (some (.span i.written)) := by
  have bare : IsBare (i.seconds.toText ++ " seconds") :=
    (IsBare.decimal i.seconds).append (by simp [IsBare])
  have seconds := reads_seconds readSeconds (fun _ _ _ => rfl) i " seconds".toList
    (by simp [Lexer.Separated])
  rw [← String.toList_append] at seconds
  have unnamed (text : List Char) :
      postgres.nameQuotation.read ("INTERVAL ".toList ++ text) = none := rfl
  have undated (text : List Char) :
      expect postgres.dateKeyword ("INTERVAL ".toList ++ text) = none := rfl
  refine reads_unsigned (by simp [spanText]) fun rest separated => ?_
  have read := (bare.encloses postgres).read_eq (unmarked_of_separated separated).2
  rw [spanText, if_pos rfl, String.toList_append, List.append_assoc, readQuantity, unnamed,
    readDateLiteral, undated, readSpanLiteral, if_pos rfl, expect_append]
  simp only [Option.bind_eq_bind, Option.bind_some, read, seconds]
  rfl

theorem reads_span (dates : d ≠ ansi) (i : Interval) :
    Scans (readSigned (d.readQuantity row)) (d.spanText i) (some (.span i.written)) := by
  by_cases native : d = postgres
  · exact native ▸ reads_native i
  · rw [spanText, if_neg native]
    refine reads_seconds _ (fun c text digit => ?_) i
    have unnamed : d.nameQuotation.read (c :: text) = none := by
      refine if_neg ?_
      rintro rfl
      cases d <;> cases digit
    have undated : d.readDateLiteral (c :: text) = none := by
      have keyword : c ≠ 'D' ∧ c ≠ '\'' := by constructor <;> rintro rfl <;> cases digit
      cases d with
      | sqlite =>
          simp [readDateLiteral, dateKeyword, expect, Text.dropFront?, Quotation.read, textQuotation,
            keyword]
      | ansi | postgres | mysql =>
          simp [readDateLiteral, dateKeyword, expect, Text.dropFront?, Ne.symm keyword.1]
    rw [readQuantity, unnamed, undated, readSpanLiteral, if_neg native]
    rfl

end BuiltinDialect

namespace CompileContext

variable {c : CompileContext} {d : BuiltinDialect} (row : List Char → Option Quantity)

/-- An exact piece that is read as an operand. -/
structure Shows (c : CompileContext) (operand : ReaderOf Quantity) (p : Piece)
    (quantity : Quantity) : Prop where
  exact : p.exact = true
  kind : p.fragment.kind = quantity.kind
  reads : Scans (readSigned operand) (c.operand p).sql (some quantity)

theorem shows_date (dialect : c.dialect = d.dialect) (date : Date) :
    ∃ p, c.literal (.date date) = .ok p ∧ p.fragment.constant = some (.date date) ∧
      c.Shows (d.readQuantity row) p (.day date) := by
  have typed : ∃ type, literalType c.dialect.types (.date date) = .ok type := by
    rw [dialect]
    cases d <;> exact ⟨_, rfl⟩
  have encoded (type : ColumnType) :
      c.literalText type (.date date) = .ok (d.dialect.dateLiteral date) :=
    dialect ▸ rfl
  obtain ⟨type, typed⟩ := typed
  exact ⟨_, literal_of_encoded (by simp [Value.kind]) typed (encoded type), rfl, rfl, rfl,
    BuiltinDialect.reads_date date⟩

theorem shows_interval (dates : d ≠ .ansi) (dialect : c.dialect = d.dialect) (i : Interval) :
    ∃ p, c.literal (.interval i) = .ok p ∧ p.fragment.constant = some (.interval i) ∧
      (c.operand p).sql = d.spanText i ∧ c.Shows (d.readQuantity row) p (.span i.written) := by
  have written : ∃ type, literalType d.dialect.types (.interval i) = .ok type ∧
      (Codec.ofKind .interval type).encode d.dialect type (.interval i) = .ok (d.spanText i) := by
    cases d with
    | ansi => exact absurd rfl dates
    | sqlite | mysql => exact ⟨_, rfl, rfl⟩
    | postgres =>
        have text : "INTERVAL '" ++ i.seconds.toText ++ " seconds'" =
            BuiltinDialect.postgres.spanText i := by
          change "INTERVAL " ++ "'" ++ i.seconds.toText ++ (" seconds" ++ "'") = _
          simp only [BuiltinDialect.spanText, if_true, String.append_assoc]
        exact ⟨_, rfl, congrArg Except.ok text⟩
  obtain ⟨type, typed, encoded⟩ := written
  rw [← dialect] at typed encoded
  exact ⟨_, literal_of_encoded (by simp [Value.kind]) typed encoded, rfl, rfl, rfl, rfl,
    BuiltinDialect.reads_span dates i⟩

/-- The column of the only table. -/
theorem shows_column {table : Table} {key : String} {column : Column} {quantity : Quantity}
    (single : c.bindings = [.ofTable table])
    (found : table.lookup key = .ok column)
    (quoted : column.quotedName = d.dialect.quoteName column.name)
    (kind : column.kind = quantity.kind) (present : row column.name.toList = some quantity) :
    ∃ p, c.column 0 key = .ok p ∧ p.fragment.constant = none ∧
      p.fragment.sql = d.dialect.quoteName column.name ∧
      c.Shows (d.readQuantity row) p quantity := by
  have compiled : c.column 0 key = .ok { fragment :=
      { sql := column.quotedName, kind := column.kind, type := column.type,
        name := some column.key } } := by
    simp only [CompileContext.column, single, List.getElem?_cons_zero, Binding.ofTable, found]
    rfl
  exact ⟨_, compiled, rfl, quoted, rfl, kind, quoted ▸ BuiltinDialect.reads_column present⟩

end CompileContext

end RowQuery
