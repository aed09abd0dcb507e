import RowQuery.Codec
import RowQuery.Dialect.Builtin
import RowQuery.Proofs.Number.Reading

/-!
# Quotation marks

How databases read a text or a name between quotation marks, and that what a dialect
writes there is read as what was meant: nothing inside the marks ends the quotation
early, and nothing behind it is taken in.  This is so too for the marks around bytes,
dates and times.
-/

namespace RowQuery

open RowQuery.Calendar RowQuery.Number

namespace Sql

/-- How a database reads what stands between quotation marks.  A doubled mark is a mark
of the text. -/
structure Quotation where
  mark : Char
  /-- A backslash changes the meaning of the character behind it. -/
  escapes : Bool

namespace Quotation

/-- What a backslash and the character behind it stand for.  Before a wildcard of
patterns the backslash stays. -/
def escaped : Char → List Char
  | '0' => [Char.ofNat 0]
  | 'b' => [Char.ofNat 8]
  | 'n' => ['\n']
  | 'r' => ['\r']
  | 't' => ['\t']
  | 'Z' => [Char.ofNat 26]
  | '%' => ['\\', '%']
  | '_' => ['\\', '_']
  | c => [c]

variable (q : Quotation)

/-- What is read and what is left, with more in front of the former. -/
def prepend (front : List Char) : List Char × List Char → List Char × List Char
  | (text, rest) => (front ++ text, rest)

/-- Read on inside the marks: the text up to the closing mark, and what follows. -/
def readInside : List Char → Option (List Char × List Char)
  | [] => none
  | [c] => if c = q.mark then some ([], []) else none
  | c :: next :: rest =>
      if c = q.mark then
        if next = q.mark then (readInside rest).map (prepend [q.mark])
        else some ([], next :: rest)
      else if q.escapes && c == '\\' then (readInside rest).map (prepend (escaped next))
      else (readInside (next :: rest)).map (prepend [c])

/-- Read a quoted text from its opening mark on. -/
def read : List Char → Option (List Char × List Char)
  | [] => none
  | c :: text => if c = q.mark then q.readInside text else none

/-- A character that has to be doubled between the marks. -/
def isSpecial (c : Char) : Bool :=
  c == q.mark || (q.escapes && c == '\\')

/-- A text as it stands between the marks. -/
def doubled (text : List Char) : List Char :=
  text.flatMap fun c => if q.isSpecial c then [c, c] else [c]

variable {q}

theorem doubled_cons (c : Char) (text : List Char) :
    q.doubled (c :: text) = (if q.isSpecial c then [c, c] else [c]) ++ q.doubled text :=
  List.flatMap_cons

/-- A text without special characters stands for itself. -/
theorem doubled_of_plain {text : List Char} (plain : ∀ c ∈ text, q.isSpecial c = false) :
    q.doubled text = text := by
  induction text with
  | nil => rfl
  | cons c text ih =>
      rw [List.forall_mem_cons] at plain
      rw [doubled_cons, plain.1, ih plain.2]
      rfl

theorem readInside_end {rest : List Char} (separate : rest.head? ≠ some q.mark) :
    q.readInside (q.mark :: rest) = some ([], rest) := by
  cases rest with
  | nil => simp [readInside]
  | cons next rest =>
      have other : next ≠ q.mark := fun same => separate (congrArg some same)
      simp [readInside, other]

theorem readInside_special {c : Char} (special : q.isSpecial c = true) (text : List Char) :
    q.readInside (c :: c :: text) = (q.readInside text).map (prepend [c]) := by
  by_cases same : c = q.mark
  · subst same
    simp [readInside]
  · have escape : q.escapes = true ∧ c = '\\' := by simpa [isSpecial, same] using special
    obtain ⟨escapes, rfl⟩ := escape
    simp [readInside, same, escapes, escaped]

theorem readInside_plain {c : Char} (plain : q.isSpecial c = false) (text : List Char) :
    q.readInside (c :: text) = (q.readInside text).map (prepend [c]) := by
  rw [isSpecial, Bool.or_eq_false_iff, beq_eq_false_iff_ne] at plain
  cases text with
  | nil => simp [readInside, plain.1]
  | cons next text => simp [readInside, plain]

/-- What is doubled between the marks is read back, up to a mark that is not followed by
another one. -/
theorem readInside_doubled (text : List Char) {rest : List Char}
    (separate : rest.head? ≠ some q.mark) :
    q.readInside (q.doubled text ++ q.mark :: rest) = some (text, rest) := by
  induction text with
  | nil => exact readInside_end separate
  | cons c text ih =>
      rw [doubled_cons]
      cases special : q.isSpecial c with
      | true =>
          change q.readInside (c :: c :: (q.doubled text ++ q.mark :: rest)) = _
          rw [readInside_special special, ih]
          rfl
      | false =>
          change q.readInside (c :: (q.doubled text ++ q.mark :: rest)) = _
          rw [readInside_plain special, ih]
          rfl

/-- Without escapes only the marks are doubled. -/
theorem doubled_eq_replaceChar (mark : Char) (text : List Char) :
    Quotation.doubled ⟨mark, false⟩ text = Text.replaceChar mark [mark, mark] text := by
  induction text with
  | nil => rfl
  | cons c text ih =>
      rw [doubled_cons, ih]
      by_cases same : c = mark <;> simp [isSpecial, Text.replaceChar, same]

/-- With escapes the backslashes are doubled before the marks. -/
theorem doubled_eq_replaceChars {mark : Char} (other : mark ≠ '\\')
    (text : List Char) :
    Quotation.doubled ⟨mark, true⟩ text =
      Text.replaceChar mark [mark, mark] (Text.replaceChar '\\' ['\\', '\\'] text) := by
  induction text with
  | nil => rfl
  | cons c text ih =>
      rw [doubled_cons, ih]
      by_cases backslash : c = '\\'
      · subst backslash
        simp [isSpecial, Text.replaceChar, other.symm]
      · by_cases same : c = mark <;> simp [isSpecial, Text.replaceChar, same, backslash, other]

/-- A text between its marks. -/
def Encloses (q : Quotation) (text : List Char) (sql : String) : Prop :=
  sql.toList = q.mark :: (q.doubled text ++ [q.mark])

theorem Encloses.read_eq {text : List Char} {sql : String} (encloses : q.Encloses text sql)
    {rest : List Char} (separate : rest.head? ≠ some q.mark) :
    q.read (sql.toList ++ rest) = some (text, rest) := by
  rw [Encloses] at encloses
  rw [encloses, List.cons_append, List.append_assoc, List.singleton_append, read, if_pos rfl]
  exact readInside_doubled text separate

theorem encloses_of_plain {text : List Char} (plain : ∀ c ∈ text, q.isSpecial c = false)
    {sql : String} (written : sql.toList = q.mark :: (text ++ [q.mark])) :
    q.Encloses text sql := by
  rw [Encloses, doubled_of_plain plain, written]

end Quotation

end Sql

open Sql

theorem enclose_encloses (mark : Char) (text : String) :
    Quotation.Encloses ⟨mark, false⟩ text.toList (enclose mark text) := by
  rw [Quotation.Encloses, Quotation.doubled_eq_replaceChar, enclose, String.toList_ofList]
  rfl

theorem mysqlText_encloses (text : String) :
    Quotation.Encloses ⟨'\'', true⟩ text.toList (Dialect.mysqlText text) := by
  rw [Quotation.Encloses, Quotation.doubled_eq_replaceChars (by decide), Dialect.mysqlText,
    enclose, String.toList_ofList, String.toList_ofList]
  rfl

namespace BuiltinDialect

/-- The marks around texts.  MySQL reads backslashes as escapes. -/
def textQuotation : BuiltinDialect → Quotation
  | mysql => ⟨'\'', true⟩
  | ansi | postgres | sqlite => ⟨'\'', false⟩

/-- The marks around names. -/
def nameQuotation : BuiltinDialect → Quotation
  | mysql => ⟨Dialect.backquote, false⟩
  | ansi | postgres | sqlite => ⟨'"', false⟩

variable (d : BuiltinDialect)

theorem quoteText_encloses (text : String) :
    d.textQuotation.Encloses text.toList (d.dialect.quoteText text) := by
  cases d with
  | mysql => exact mysqlText_encloses text
  | ansi | postgres | sqlite => exact enclose_encloses '\'' text

theorem quoteName_encloses (name : String) :
    d.nameQuotation.Encloses name.toList (d.dialect.quoteName name) := by
  cases d with
  | mysql => exact enclose_encloses Dialect.backquote name
  | ansi | postgres | sqlite => exact enclose_encloses '"' name

/-- A text is one literal of some content: at most a keyword, a quoted text, which is read
completely wherever it stands, and at most a cast. -/
def IsLiteral (sql : String) (content : List Char) : Prop :=
  ∃ keyword ∈ ["", "X", "DATE ", "TIME ", "TIMESTAMP "], ∃ quoted, ∃ cast ∈ ["", "::bytea"],
    sql = keyword ++ quoted ++ cast ∧
      ∀ rest : List Char, rest.head? ≠ some d.textQuotation.mark →
        d.textQuotation.read (quoted.toList ++ (cast.toList ++ rest)) =
          some (content, cast.toList ++ rest)

variable {d}

theorem mark_eq : d.textQuotation.mark = '\'' := by
  cases d <;> rfl

theorem isLiteral_of_encloses {quoted : String} {content : List Char}
    (encloses : d.textQuotation.Encloses content quoted) {keyword cast : String}
    (known : keyword ∈ ["", "X", "DATE ", "TIME ", "TIMESTAMP "])
    (typed : cast ∈ ["", "::bytea"]) : d.IsLiteral (keyword ++ quoted ++ cast) content := by
  refine ⟨keyword, known, quoted, cast, typed, rfl, fun rest separate => ?_⟩
  refine encloses.read_eq ?_
  rw [List.mem_cons, List.mem_singleton] at typed
  rcases typed with rfl | rfl
  · exact separate
  · simp [mark_eq]

theorem isLiteral_quoteText (text : String) :
    d.IsLiteral (d.dialect.quoteText text) text.toList := by
  have literal : d.IsLiteral ("" ++ d.dialect.quoteText text ++ "") text.toList :=
    isLiteral_of_encloses (d.quoteText_encloses text) (by simp) (by simp)
  rwa [String.empty_append, String.append_empty] at literal

end BuiltinDialect

/-- The text can stand between quotation marks as it is. -/
def IsBare (text : String) : Prop :=
  ∀ c ∈ text.toList, c ≠ '\'' ∧ c ≠ '\\'

namespace IsBare

theorem append {text more : String} (first : IsBare text) (second : IsBare more) :
    IsBare (text ++ more) := by
  intro c member
  rw [String.toList_append, List.mem_append] at member
  exact member.elim (first c) (second c)

theorem ofDigit {c : Char} (digit : isDigit c = true) : c ≠ '\'' ∧ c ≠ '\\' := by
  constructor <;> rintro rfl <;> cases digit

theorem padded (width n : Nat) : IsBare (paddedText width n) := by
  intro c member
  rw [paddedText, String.toList_ofList, padZeros, List.mem_append] at member
  refine ofDigit ?_
  rcases member with zero | digit
  · rw [List.eq_of_mem_replicate zero]
    rfl
  · exact isDigit_of_mem_digits n c digit

theorem decimal (d : Decimal) : IsBare d.toText := by
  intro c member
  rcases Decimal.of_mem_toText member with digit | rfl | rfl
  · exact ofDigit digit
  · exact ⟨by decide, by decide⟩
  · exact ⟨by decide, by decide⟩

theorem date (d : Date) : IsBare d.toText := by
  have year : IsBare (Date.yearText d.year) := by
    unfold Date.yearText
    split
    · exact padded _ _
    · split
      · exact append (by simp [IsBare]) (padded _ _)
      · exact append (by simp [IsBare]) (padded _ _)
  have hyphen : IsBare "-" := by simp [IsBare]
  exact (((year.append hyphen).append (padded _ _)).append hyphen).append (padded _ _)

theorem clock (c : Clock) : IsBare c.toText := by
  have colon : IsBare ":" := by simp [IsBare]
  have fraction (nanos : Nat) : IsBare (Clock.fractionText nanos) := by
    have point : IsBare "." := by simp [IsBare]
    unfold Clock.fractionText
    repeat' split
    · simp [IsBare]
    all_goals exact point.append (padded _ _)
  exact ((((padded _ _).append colon).append (padded _ _)).append colon |>.append
    (padded _ _)).append (fraction _)

theorem moment (m : Moment) : IsBare (m.toText " ") :=
  ((date m.date).append (by simp [IsBare])).append (clock m.clock)

theorem hexEncode (bytes : List UInt8) : IsBare (String.ofList (hexEncode bytes)) := by
  have digit : ∀ n : Fin 16, Text.hexDigit n ≠ '\'' ∧ Text.hexDigit n ≠ '\\' := by decide
  intro c member
  rw [String.toList_ofList, Sql.hexEncode, List.mem_flatMap] at member
  obtain ⟨byte, -, member⟩ := member
  have high := digit ⟨byte.toNat / 16, by have := byte.toNat_lt; omega⟩
  have low := digit ⟨byte.toNat % 16, Nat.mod_lt _ (by decide)⟩
  rw [hexByte, List.mem_cons, List.mem_singleton] at member
  rcases member with rfl | rfl
  · exact high
  · exact low

theorem encloses {text : String} (bare : IsBare text) (d : BuiltinDialect) :
    d.textQuotation.Encloses text.toList ("'" ++ text ++ "'") := by
  refine Quotation.encloses_of_plain (fun c member => ?_) ?_
  · simp [Quotation.isSpecial, BuiltinDialect.mark_eq, bare c member]
  · simp [BuiltinDialect.mark_eq]

/-- A bare text between the marks, behind a keyword and before a cast. -/
theorem isLiteral {text : String} (bare : IsBare text) (d : BuiltinDialect)
    (keyword cast : String) (known : keyword ∈ ["", "X", "DATE ", "TIME ", "TIMESTAMP "])
    (typed : cast ∈ ["", "::bytea"]) :
    d.IsLiteral (keyword ++ "'" ++ text ++ ("'" ++ cast)) text.toList := by
  have literal := BuiltinDialect.isLiteral_of_encloses (bare.encloses d) known typed
  simpa only [String.append_assoc] using literal

end IsBare

namespace BuiltinDialect

variable (d : BuiltinDialect)

theorem isLiteral_date (date : Date) :
    d.IsLiteral (d.dialect.dateLiteral date) date.toText.toList := by
  cases d with
  | sqlite => exact isLiteral_quoteText date.toText
  | ansi | postgres | mysql =>
      exact (IsBare.date date).isLiteral _ "DATE " "" (by simp) (by simp)

theorem isLiteral_time (time : Clock) :
    d.IsLiteral (d.dialect.timeLiteral time) time.toText.toList := by
  cases d with
  | sqlite => exact isLiteral_quoteText time.toText
  | ansi | postgres | mysql =>
      exact (IsBare.clock time).isLiteral _ "TIME " "" (by simp) (by simp)

theorem isLiteral_datetime (moment : Moment) :
    d.IsLiteral (d.dialect.datetimeLiteral moment) (moment.toText " ").toList := by
  cases d with
  | sqlite => exact isLiteral_quoteText (moment.toText " ")
  | ansi | postgres | mysql =>
      exact (IsBare.moment moment).isLiteral _ "TIMESTAMP " "" (by simp) (by simp)

/-- Bytes as PostgreSQL has them inside a text. -/
def markedHex (bytes : List UInt8) : String :=
  "\\x" ++ String.ofList (hexEncode bytes)

theorem bytesLiteral_postgres (bytes : List UInt8) :
    postgres.dialect.bytesLiteral bytes = "" ++ ("'" ++ markedHex bytes ++ "'") ++ "::bytea" := by
  change "'" ++ "\\x" ++ String.ofList (hexEncode bytes) ++ ("'" ++ "::bytea") = _
  simp only [markedHex, String.append_assoc, String.empty_append]

/-- The marker begins with a backslash, which is no escape in PostgreSQL. -/
theorem markedHex_encloses (bytes : List UInt8) :
    postgres.textQuotation.Encloses (markedHex bytes).toList ("'" ++ markedHex bytes ++ "'") := by
  refine Quotation.encloses_of_plain (fun c member => ?_) (by simp [mark_eq])
  rw [markedHex, String.toList_append, List.mem_append] at member
  rcases member with marker | digit
  · rw [show "\\x".toList = ['\\', 'x'] from rfl, List.mem_cons, List.mem_singleton] at marker
    rcases marker with rfl | rfl <;> rfl
  · simp [Quotation.isSpecial, textQuotation, (IsBare.hexEncode bytes c digit).1]

theorem isLiteral_bytes (bytes : List UInt8) :
    ∃ content, d.IsLiteral (d.dialect.bytesLiteral bytes) content := by
  cases d with
  | ansi | sqlite | mysql =>
      exact ⟨_, (IsBare.hexEncode bytes).isLiteral _ "X" "" (by simp) (by simp)⟩
  | postgres =>
      rw [bytesLiteral_postgres]
      exact ⟨_, isLiteral_of_encloses (markedHex_encloses bytes) (by simp) (by simp)⟩

/-- Quotation marks cannot be escaped.  A quoted text or name is read back as it was, whatever
it contains and whatever follows it but another mark; and what is written for a text, for
bytes, or for a date or time is a single literal. -/
theorem quotes_cannot_be_escaped :
    (∀ (text : String) (rest : List Char), rest.head? ≠ some d.textQuotation.mark →
      d.textQuotation.read ((d.dialect.quoteText text).toList ++ rest) =
        some (text.toList, rest)) ∧
    (∀ (name : String) (rest : List Char), rest.head? ≠ some d.nameQuotation.mark →
      d.nameQuotation.read ((d.dialect.quoteName name).toList ++ rest) =
        some (name.toList, rest)) ∧
    ∀ (value : Value) (type : ColumnType),
      value.kind ∈ [.text, .bytes, .date, .time, .datetime] →
      ∃ sql content, (Codec.ofKind value.kind type).encode d.dialect type value = .ok sql ∧
        d.IsLiteral sql content ∧ ∀ text, value = .text text → content = text.toList := by
  refine ⟨fun text _ separate => (d.quoteText_encloses text).read_eq separate,
    fun name _ separate => (d.quoteName_encloses name).read_eq separate, ?_⟩
  intro value type kind
  cases value with
  | text text =>
      exact ⟨_, _, rfl, isLiteral_quoteText text, fun _ same => by rw [Value.text.inj same]⟩
  | bytes bytes =>
      obtain ⟨content, literal⟩ := d.isLiteral_bytes bytes
      exact ⟨_, content, rfl, literal, nofun⟩
  | date date => exact ⟨_, _, rfl, d.isLiteral_date date, nofun⟩
  | time time => exact ⟨_, _, rfl, d.isLiteral_time time, nofun⟩
  | datetime moment => exact ⟨_, _, rfl, d.isLiteral_datetime moment, nofun⟩
  | _ => simp [Value.kind] at kind

/-- A text that would end a MySQL literal if its backslash or its mark were left alone, and a
name with a mark in it. -/
theorem quotes_hostile_text :
    mysql.textQuotation.read
        ((Dialect.mysql.quoteText "\\' OR 1=1 -- ").toList ++ " AND ".toList) =
      some ("\\' OR 1=1 -- ".toList, " AND ".toList) ∧
    mysql.nameQuotation.read ((Dialect.mysql.quoteName "`; --").toList ++ " = 1".toList) =
      some ("`; --".toList, " = 1".toList) ∧
    ∃ sql content, (Codec.ofKind .text (.longOf "TEXT" .varchar 65535)).encode Dialect.mysql
        (.longOf "TEXT" .varchar 65535) (.text "\\") = .ok sql ∧
      mysql.IsLiteral sql content ∧ ∀ text, Value.text "\\" = .text text → content = text.toList :=
  ⟨(quotes_cannot_be_escaped mysql).1 _ _ (by decide),
    (quotes_cannot_be_escaped mysql).2.1 _ _ (by decide),
    (quotes_cannot_be_escaped mysql).2.2 (.text "\\") _ (by decide)⟩

end BuiltinDialect

end RowQuery
