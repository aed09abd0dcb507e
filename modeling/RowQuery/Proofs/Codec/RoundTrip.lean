import RowQuery.Proofs.Calendar.Reading
import RowQuery.Proofs.Codec.Hexadecimal
import RowQuery.Proofs.Sql.Quotation

/-!
# Values come back from the database

A value is written as a literal, and a database that is asked for the literal answers with a
cell: bytes for hexadecimal digits, a text for what is quoted, and numbers and truth values as
they are written.  From this cell the value is read back.
-/

namespace RowQuery

open RowQuery.Calendar RowQuery.Number RowQuery.Sql

/-- Two values are the same.  Decimals are, if they are the same number. -/
def Value.Same : Value → Value → Prop
  | .decimal a, .decimal b => a.compare b = .eq
  | a, b => a = b

/-- The cell with the halves of an integer. -/
def Cell.split (i : Int64) : Cell :=
  .halves (Int32.ofInt (i.toInt / 0x100000000)) (UInt32.ofNat (i.toInt % 0x100000000).toNat)

namespace BuiltinDialect

/-- The keywords that say what a quoted text stands for. -/
def literalKeywords : List String := ["DATE ", "TIME ", "TIMESTAMP ", "INTERVAL "]

/-- What stands behind the keyword of a literal. -/
def withoutKeyword (text : List Char) : List Char :=
  (literalKeywords.findSome? fun keyword => Text.dropFront? keyword.toList text).getD text

variable (d : BuiltinDialect)

/-- The content of a quoted text that may be cast to a type. -/
def content? (text : List Char) : Option (List Char) := do
  let (content, rest) ← d.textQuotation.read text
  if rest.isEmpty || Text.startsWith rest [':', ':'] then some content else none

/-- What a database answers that is asked for a literal. -/
def echo (literal : String) : Option Cell :=
  match withoutKeyword literal.toList with
  | '\'' :: text => (d.content? ('\'' :: text)).map fun content => .text (String.ofList content)
  | 'X' :: '\'' :: digits => ((d.content? ('\'' :: digits)).bind hexDecode?).map .bytes
  | text => some (.text (String.ofList (Text.before [':', ':'] text)))

variable {d}

theorem withoutKeyword_of_head {text : List Char} (other : ∀ c ∈ text.head?, c ∉ ['D', 'T', 'I']) :
    withoutKeyword text = text := by
  cases text with
  | nil => rfl
  | cons c text =>
      have other := other c rfl
      simp only [List.mem_cons, List.not_mem_nil, or_false, not_or] at other
      simp [withoutKeyword, literalKeywords, Text.dropFront?, Ne.symm other.1, Ne.symm other.2.1,
        Ne.symm other.2.2]

theorem before_of_absent {mark : Char} (piece : List Char) {text : List Char}
    (absent : mark ∉ text) : Text.before (mark :: piece) text = text := by
  induction text with
  | nil => rfl
  | cons c text ih =>
      rw [List.mem_cons, not_or] at absent
      rw [Text.before, if_neg (by simp [absent.1]), ih absent.2]

theorem content?_of_encloses {content : List Char} {quoted : String}
    (encloses : d.textQuotation.Encloses content quoted) (cast : String) (typed : cast ∈ ["", "::bytea"]) :
    d.content? (quoted.toList ++ cast.toList) = some content := by
  have separate : cast.toList.head? ≠ some d.textQuotation.mark := by
    rw [mark_eq]
    simp only [List.mem_cons, List.not_mem_nil, or_false] at typed
    rcases typed with rfl | rfl <;> decide
  have ended : cast.toList.isEmpty || Text.startsWith cast.toList [':', ':'] := by
    simp only [List.mem_cons, List.not_mem_nil, or_false] at typed
    rcases typed with rfl | rfl <;> decide
  rw [content?, encloses.read_eq separate]
  exact if_pos ended

/-- A quoted text, whatever keyword stands in front of it. -/
theorem echo_of_encloses {content : List Char} {quoted : String}
    (encloses : d.textQuotation.Encloses content quoted) (keyword cast : String)
    (known : keyword ∈ "" :: literalKeywords)
    (typed : cast ∈ ["", "::bytea"]) :
    d.echo (keyword ++ quoted ++ cast) = some (.text (String.ofList content)) := by
  obtain ⟨inside, text⟩ : ∃ inside, quoted.toList = '\'' :: inside := by
    rw [Quotation.Encloses, mark_eq] at encloses
    exact ⟨_, encloses⟩
  have unworded : withoutKeyword (keyword ++ quoted ++ cast).toList =
      '\'' :: (inside ++ cast.toList) := by
    simp only [literalKeywords, List.mem_cons, List.not_mem_nil, or_false] at known
    rcases known with rfl | rfl | rfl | rfl | rfl <;>
      simp [withoutKeyword, literalKeywords, Text.dropFront?, String.toList_append, text]
  have found := content?_of_encloses encloses cast typed
  rw [text, List.cons_append] at found
  rw [echo, unworded]
  change (d.content? ('\'' :: (inside ++ cast.toList))).map _ = _
  rw [found]
  rfl

/-- A text that is quoted as it is, behind a keyword. -/
theorem echo_of_bare {text : String} (bare : IsBare text) (keyword : String)
    (known : keyword ∈ literalKeywords) :
    d.echo (keyword ++ "'" ++ text ++ "'") = some (.text text) := by
  have answered := echo_of_encloses (bare.encloses d) keyword ""
    (List.mem_cons_of_mem "" known) (by simp)
  simpa [String.append_assoc] using answered

theorem echo_quoteText (text : String) : d.echo (d.dialect.quoteText text) = some (.text text) := by
  have answered := echo_of_encloses (d.quoteText_encloses text) "" "" (by simp) (by simp)
  simpa using answered

theorem echo_date (date : Date) : d.echo (d.dialect.dateLiteral date) = some (.text date.toText) := by
  cases d with
  | sqlite => exact echo_quoteText date.toText
  | ansi | postgres | mysql =>
      exact echo_of_bare (IsBare.date date) "DATE " (by simp [literalKeywords])

theorem echo_time (time : Clock) : d.echo (d.dialect.timeLiteral time) = some (.text time.toText) := by
  cases d with
  | sqlite => exact echo_quoteText time.toText
  | ansi | postgres | mysql =>
      exact echo_of_bare (IsBare.clock time) "TIME " (by simp [literalKeywords])

theorem echo_datetime (moment : Moment) :
    d.echo (d.dialect.datetimeLiteral moment) = some (.text (moment.toText " ")) := by
  cases d with
  | sqlite => exact echo_quoteText (moment.toText " ")
  | ansi | postgres | mysql =>
      exact echo_of_bare (IsBare.moment moment) "TIMESTAMP " (by simp [literalKeywords])

/-! ## Bytes -/

/-- Hexadecimal digits stand for bytes. -/
theorem echo_hex (bytes : List UInt8) :
    d.echo ("X'" ++ String.ofList (hexEncode bytes) ++ "'") = some (.bytes bytes) := by
  have found := content?_of_encloses ((IsBare.hexEncode bytes).encloses d) "" (by simp)
  have text : ("X'" ++ String.ofList (hexEncode bytes) ++ "'").toList =
      'X' :: ("'" ++ String.ofList (hexEncode bytes) ++ "'").toList := by
    simp [String.toList_append]
  have marked : ("'" ++ String.ofList (hexEncode bytes) ++ "'").toList =
      '\'' :: (hexEncode bytes ++ ['\'']) := by
    simp [String.toList_append]
  have unworded : withoutKeyword ('X' :: '\'' :: (hexEncode bytes ++ ['\''])) =
      'X' :: '\'' :: (hexEncode bytes ++ ['\'']) :=
    withoutKeyword_of_head (by simp)
  rw [marked] at found
  simp only [String.toList_empty, List.append_nil] at found
  rw [echo, text, marked, unworded]
  change ((d.content? ('\'' :: (hexEncode bytes ++ ['\'']))).bind hexDecode?).map Cell.bytes = _
  rw [found, Option.bind_some, String.toList_ofList, hexDecode?_hexEncode]
  rfl

/-- Bytes come as bytes, or as a text with a marker in front of the digits. -/
theorem decode?_echo_bytes (bytes : List UInt8) :
    ∃ cell, d.echo (d.dialect.bytesLiteral bytes) = some cell ∧
      Codec.bytes.decode? cell = some (.bytes bytes) := by
  cases d with
  | ansi | sqlite | mysql => exact ⟨.bytes bytes, echo_hex bytes, rfl⟩
  | postgres =>
      refine ⟨.text (markedHex bytes), ?_, ?_⟩
      · rw [bytesLiteral_postgres]
        have answered := echo_of_encloses (markedHex_encloses bytes) "" "::bytea" (by simp) (by simp)
        rwa [String.ofList_toList] at answered
      · have text : (markedHex bytes).toList = '\\' :: 'x' :: hexEncode bytes := by
          simp [markedHex, String.toList_append]
        simp [Codec.decode?, Codec.readBytes?, text, Text.dropFront?, hexDecode?_hexEncode]

/-! ## Numbers and truth values -/

/-- A number is what it is written as. -/
theorem echo_number {text : String}
    (plain : ∀ c ∈ text.toList, isDigit c = true ∨ c = '.' ∨ c = '-') :
    d.echo text = some (.text text) := by
  have absent (c : Char) (other : isDigit c = false ∧ c ≠ '.' ∧ c ≠ '-') : c ∉ text.toList := by
    intro member
    rcases plain c member with digit | same | same
    · rw [other.1] at digit
      cases digit
    · exact other.2.1 same
    · exact other.2.2 same
  have unworded : withoutKeyword text.toList = text.toList := by
    refine withoutKeyword_of_head fun c first keyword => ?_
    refine absent c ?_ (List.mem_of_mem_head? first)
    simp only [List.mem_cons, List.not_mem_nil, or_false] at keyword
    rcases keyword with rfl | rfl | rfl <;> decide
  have uncast : Text.before [':', ':'] text.toList = text.toList :=
    before_of_absent _ (absent ':' (by decide))
  rw [echo, unworded]
  split
  · rename_i marked
    exact absurd (marked ▸ List.mem_cons_self) (absent '\'' (by decide))
  · rename_i marked
    exact absurd (marked ▸ List.mem_cons_self) (absent 'X' (by decide))
  · rw [uncast, String.ofList_toList]

theorem echo_intText (i : Int) : d.echo (intText i) = some (.text (intText i)) := by
  refine echo_number fun c member => ?_
  rw [toList_intText] at member
  split at member
  · rcases List.mem_cons.1 member with sign | digit
    · exact .inr (.inr sign)
    · exact .inl (isDigit_of_mem_digits _ c digit)
  · exact .inl (isDigit_of_mem_digits _ c member)

/-- A truth value comes as a word or as a digit. -/
theorem decode?_echo_bool (b : Bool) (type : ColumnType) :
    ∃ cell, d.echo (Codec.encodeBool d.dialect b type) = some cell ∧
      Codec.bool.decode? cell = some (.bool b) := by
  have written : Codec.encodeBool d.dialect b type = (if b then "1" else "0") ∨
      Codec.encodeBool d.dialect b type = (if b then "TRUE" else "FALSE") := by
    unfold Codec.encodeBool
    split
    · exact .inl rfl
    · cases d with
      | sqlite => exact .inl rfl
      | ansi | postgres | mysql => exact .inr rfl
  have words : Codec.readBool? "1" = some true ∧ Codec.readBool? "0" = some false ∧
      Codec.readBool? "TRUE" = some true ∧ Codec.readBool? "FALSE" = some false := by
    decide
  rcases written with digit | word
  · rw [digit]
    cases b
    · exact ⟨.text "0", rfl, congrArg (Option.map Value.bool) words.2.1⟩
    · exact ⟨.text "1", rfl, congrArg (Option.map Value.bool) words.1⟩
  · rw [word]
    cases b
    · exact ⟨.text "FALSE", rfl, congrArg (Option.map Value.bool) words.2.2.2⟩
    · exact ⟨.text "TRUE", rfl, congrArg (Option.map Value.bool) words.2.2.1⟩

/-- An integer that is in the range of its type is written as its digits. -/
theorem eq_of_encodeInt {i : Int64} {type : ColumnType} {literal : String}
    (encoded : Codec.encodeInt i type = .ok literal) : literal = intText i.toInt := by
  unfold Codec.encodeInt at encoded
  split at encoded
  · split at encoded
    · exact (Except.ok.inj encoded).symm
    · cases encoded
  · exact (Except.ok.inj encoded).symm

theorem decode?_intText (i : Int64) :
    Codec.int.decode? (.text (intText i.toInt)) = some (.int i) := by
  have read : Codec.readInt? (intText i.toInt) = some i := by
    rw [Codec.readInt?, Text.trimChars_of_unblank (unblank_intText _), readWord?_intText]
  exact congrArg (Option.map Value.int) read

theorem decode?_echo_int {i : Int64} {type : ColumnType} {literal : String}
    (encoded : Codec.encodeInt i type = .ok literal) :
    ∃ cell, d.echo literal = some cell ∧ Codec.int.decode? cell = some (.int i) := by
  obtain rfl := eq_of_encodeInt encoded
  exact ⟨_, echo_intText i.toInt, decode?_intText i⟩

/-- A decimal that fits its type is written as it is. -/
theorem eq_of_encodeDecimal {number : Decimal} {type : ColumnType} {literal : String}
    (encoded : Codec.encodeDecimal number type = .ok literal) : literal = number.toText := by
  unfold Codec.encodeDecimal at encoded
  split at encoded
  · exact (Except.ok.inj encoded).symm
  · cases encoded

theorem exists_decode?_toText (number : Decimal) :
    ∃ read, Codec.decimal.decode? (.text number.toText) = some (.decimal read) ∧
      read.compare number = .eq := by
  obtain ⟨read, found, same⟩ := number.exists_read?_toText
  refine ⟨read, ?_, same⟩
  rw [Codec.decode?, Text.trimChars_of_unblank number.unblank_toText, found]
  rfl

theorem decode?_echo_decimal {number : Decimal} {type : ColumnType} {literal : String}
    (encoded : Codec.encodeDecimal number type = .ok literal) :
    ∃ cell read, d.echo literal = some cell ∧ Codec.decimal.decode? cell = some (.decimal read) ∧
      read.compare number = .eq := by
  obtain rfl := eq_of_encodeDecimal encoded
  obtain ⟨read, found, same⟩ := exists_decode?_toText number
  exact ⟨_, read, echo_number fun c member => Decimal.of_mem_toText member, found, same⟩

theorem joinHalves_split (i : Int64) : Codec.int.decode? (.split i) = some (.int i) := by
  have low := i.le_toInt
  have high := i.toInt_lt
  have upper : (Int32.ofInt (i.toInt / 0x100000000)).toInt = i.toInt / 0x100000000 :=
    Int32.toInt_ofInt_of_le (by omega) (by omega)
  have lower : (UInt32.ofNat (i.toInt % 0x100000000).toNat).toNat =
      (i.toInt % 0x100000000).toNat :=
    UInt32.toNat_ofNat_of_lt' (by
      have : UInt32.size = 0x100000000 := rfl
      omega)
  have joined : Cell.joinHalves (Int32.ofInt (i.toInt / 0x100000000))
      (UInt32.ofNat (i.toInt % 0x100000000).toNat) = i := by
    have whole : i.toInt / 0x100000000 * 0x100000000 + ((i.toInt % 0x100000000).toNat : Int) =
        i.toInt := by omega
    rw [Cell.joinHalves, upper, lower, whole, Int64.ofInt_toInt]
  exact congrArg (fun i => some (Value.int i)) joined

variable (d)

end BuiltinDialect

end RowQuery
