import RowQuery.Proofs.Codec.RoundTrip
import RowQuery.Proofs.Number.Shortest
import RowQuery.Proofs.Reach.Literal
import RowQuery.Schema.Discovery

/-!
# Defaults as the catalog reports them

The catalog of SQLite reports a default as the text it was declared with.  A quoted text loses its
quotes and is otherwise what it was, whatever stands inside; a number is left as it is.  So every
default but one of bytes is read back.
-/

namespace RowQuery

open RowQuery.Calendar RowQuery.Number RowQuery.Sql

theorem Number.IsNumber.unblank {text : List Char} (number : IsNumber text) :
    ∀ c ∈ text, Text.isBlank c = false := by
  intro c member
  have numeral := number c member
  rw [isNumeral, Bool.or_eq_true] at numeral
  rcases numeral with digit | other
  · exact Text.isBlank_of_isDigit digit
  · simp only [List.contains_eq_mem, List.mem_cons, List.not_mem_nil, or_false,
      decide_eq_true_eq] at other
    rcases other with rfl | rfl | rfl <;> rfl

namespace Discovery

/-! ## The text without its marks -/

/-- The default is reported for a value that is stored as a text, and names no sequence. -/
structure Reports (default content : String) : Prop where
  plain : plainDefault default = content
  unsequenced : sequenceOf? default = none

/-- A default that begins with another character than the call of a sequence names none. -/
theorem sequenceOf?_of_head {default : String} {c : Char} {rest : List Char}
    (trimmed : Text.trimChars default.toList = c :: rest) (other : c ≠ 'n') :
    sequenceOf? default = none := by
  have uncalled : Text.dropFront? "nextval(".toList (c :: rest) = none := by
    change (if 'n' = c then _ else none) = none
    rw [if_neg (Ne.symm other)]
  rw [sequenceOf?, trimmed, uncalled]
  rfl

/-- What is doubled between the quotes is read up to the closing one. -/
theorem literalBody_doubled (content rest : List Char) (separate : rest.head? ≠ some '\'') :
    literalBody (Quotation.doubled ⟨'\'', false⟩ content ++ '\'' :: rest) = content := by
  induction content with
  | nil =>
      cases rest with
      | nil => rfl
      | cons c rest =>
          have other : c ≠ '\'' := fun same => separate (congrArg some same)
          simp [Quotation.doubled, literalBody, other]
  | cons c content ih =>
      rw [Quotation.doubled_cons]
      by_cases mark : c = '\''
      · subst mark
        have special : Quotation.isSpecial ⟨'\'', false⟩ '\'' = true := rfl
        rw [special]
        change '\'' :: literalBody (Quotation.doubled ⟨'\'', false⟩ content ++ '\'' :: rest) = _
        rw [ih]
      · have plain : Quotation.isSpecial ⟨'\'', false⟩ c = false := by
          simp [Quotation.isSpecial, mark]
        rw [plain]
        change literalBody (c :: (Quotation.doubled ⟨'\'', false⟩ content ++ '\'' :: rest)) = _
        rw [literalBody, ih]
        · exact fun _ same _ => mark same
        · exact mark

/-- A quoted text is reported for its content. -/
theorem reports_quoted (content : String) : Reports (enclose '\'' content) content := by
  have text : (enclose '\'' content).toList =
      '\'' :: (Quotation.doubled ⟨'\'', false⟩ content.toList ++ ['\'']) :=
    enclose_encloses '\'' content
  have trimmed : Text.trimChars (enclose '\'' content).toList =
      '\'' :: (Quotation.doubled ⟨'\'', false⟩ content.toList ++ ['\'']) := by
    rw [text]
    refine Text.trimChars_of_ends ?_ ?_
    · rintro c ⟨⟩
      rfl
    · intro c last
      rw [← List.cons_append, List.getLast?_concat] at last
      cases last
      rfl
  refine ⟨?_, sequenceOf?_of_head trimmed (by decide)⟩
  unfold plainDefault
  rw [trimmed]
  change String.ofList (literalBody _) = content
  rw [literalBody_doubled _ [] (by simp), String.ofList_toList]

/-- A number is reported as it is. -/
theorem reports_number {text : String} (number : IsNumber text.toList)
    (nonempty : text.toList ≠ []) :
    Reports text text := by
  have absent {c : Char} (other : isNumeral c = false) : c ∉ text.toList := by
    intro member
    rw [number c member] at other
    cases other
  have trimmed : Text.trimChars text.toList = text.toList :=
    Text.trimChars_of_unblank number.unblank
  have uncast : Text.before [':', ':'] text.toList = text.toList :=
    BuiltinDialect.before_of_absent _ (absent rfl)
  have opened : text.toList.dropWhile (· == '(') = text.toList :=
    Text.dropWhile_of_head fun c first => beq_false_of_ne fun same =>
      absent rfl (same ▸ List.mem_of_mem_head? first)
  have closed : Text.dropEndWhile (· == ')') text.toList = text.toList := by
    rw [Text.dropEndWhile, Text.dropWhile_of_head, List.reverse_reverse]
    rw [← List.getLast?_eq_head?_reverse]
    exact fun c last => beq_false_of_ne fun same =>
      absent rfl (same ▸ List.mem_of_mem_getLast? last)
  obtain ⟨c, rest, first⟩ := List.exists_cons_of_ne_nil nonempty
  have head : c ∈ text.toList := first ▸ List.mem_cons_self
  refine ⟨?_, sequenceOf?_of_head (trimmed.trans first) fun same => absent rfl (same ▸ head)⟩
  unfold plainDefault
  rw [trimmed]
  split
  · rename_i marked
    exact absurd (marked ▸ List.mem_cons_self) (absent (c := '\'') rfl)
  · dsimp only
    rw [uncast, trimmed, opened, closed, String.ofList_toList]

/-! ## Values -/

/-- The kinds whose defaults are read back. -/
def restoredKinds : List Kind := [.bool, .int, .float, .decimal, .text, .date, .time, .datetime]

theorem reports_intText (i : Int) : Reports (intText i) (intText i) := by
  refine reports_number (.int i) ?_
  rw [toList_intText]
  split
  · exact List.cons_ne_nil _ _
  · exact digits_ne_nil _

theorem reports_decimal (d : Decimal) : Reports d.toText d.toText := by
  refine reports_number (.decimal d) ?_
  rw [Decimal.toList_toText]
  have some : d.magnitudeChars ≠ [] := by
    obtain ⟨whole, fraction, -, present, -, written⟩ := d.magnitudeChars_eq
    rw [written]
    split
    · exact present
    · exact List.append_ne_nil_of_left_ne_nil present _
  split
  · exact List.cons_ne_nil _ _
  · exact some

theorem reports_exactText {x : Float} (number : x.isNaN = false) (finite : x.isInf = false) :
    Reports (Binary64.exactText x) (Binary64.exactText x) := by
  refine reports_number (.exact number finite) fun empty => ?_
  have read := Binary64.read?_exactText number finite
  rw [empty] at read
  cases read

theorem decode?_exactText {x : Float} (number : x.isNaN = false) (finite : x.isInf = false) :
    Codec.float.decode? (.text (Binary64.exactText x)) = some (.float x) := by
  rw [Codec.decode?, Text.trimChars_of_unblank (IsNumber.exact number finite).unblank,
    Binary64.read?_exactText number finite]
  rfl

/-- The literal of a double that is written at all. -/
theorem eq_of_encode_float {type : ColumnType} {x : Float} {literal : String}
    (encoded : Codec.float.encode Dialect.sqlite type (.float x) = .ok literal) :
    x.isNaN = false ∧ x.isInf = false ∧ literal = Binary64.exactText x := by
  rw [Codec.encode] at encoded
  split at encoded
  · cases encoded
  · rename_i finite
    rw [Bool.not_eq_true, Bool.or_eq_false_iff] at finite
    exact ⟨finite.1, finite.2, (Except.ok.inj encoded).symm⟩

/-- A truth value is a digit. -/
theorem exists_bool (type : ColumnType) (b : Bool) :
    Reports (Codec.encodeBool Dialect.sqlite b type) (if b then "1" else "0") ∧
      Codec.bool.decode? (.text (if b then "1" else "0")) = some (.bool b) := by
  have written : Codec.encodeBool Dialect.sqlite b type = if b then "1" else "0" := by
    unfold Codec.encodeBool
    split <;> rfl
  rw [written]
  cases b with
  | false =>
      have read : Codec.readBool? "0" = some false := by decide
      exact ⟨⟨by decide, by decide⟩, congrArg (Option.map Value.bool) read⟩
  | true =>
      have read : Codec.readBool? "1" = some true := by decide
      exact ⟨⟨by decide, by decide⟩, congrArg (Option.map Value.bool) read⟩

/-- Bytes are not reported for a sequence. -/
theorem sequenceOf?_bytesLiteral (bytes : List UInt8) :
    sequenceOf? (Dialect.sqlite.bytesLiteral bytes) = none := by
  have text : (Dialect.sqlite.bytesLiteral bytes).toList =
      'X' :: '\'' :: (hexEncode bytes ++ ['\'']) := by
    change ("X'" ++ String.ofList (hexEncode bytes) ++ "'").toList = _
    simp [String.toList_append]
  have trimmed : Text.trimChars (Dialect.sqlite.bytesLiteral bytes).toList =
      'X' :: '\'' :: (hexEncode bytes ++ ['\'']) := by
    rw [text]
    refine Text.trimChars_of_ends ?_ ?_
    · rintro c ⟨⟩
      rfl
    · intro c last
      rw [← List.cons_append, ← List.cons_append, List.getLast?_concat] at last
      cases last
      rfl
  exact sequenceOf?_of_head trimmed (by decide)

/-- A default that the catalog reports is read as the value that was declared. -/
theorem exists_decode?_reported {value : Value} {type : ColumnType} {literal : String}
    (simple : value.kind ∈ restoredKinds)
    (encoded : (Codec.ofKind value.kind type).encode Dialect.sqlite type value = .ok literal) :
    ∃ content read, Reports literal content ∧
      (Codec.ofKind value.kind type).decode? (.text content) = some read ∧ read.Same value := by
  cases value with
  | bool b =>
      obtain rfl := Except.ok.inj encoded
      obtain ⟨reports, read⟩ := exists_bool type b
      exact ⟨_, _, reports, read, rfl⟩
  | int i =>
      obtain rfl := BuiltinDialect.eq_of_encodeInt encoded
      exact ⟨_, _, reports_intText _, BuiltinDialect.decode?_intText i, rfl⟩
  | float x =>
      obtain ⟨number, finite, rfl⟩ := eq_of_encode_float encoded
      exact ⟨_, _, reports_exactText number finite, decode?_exactText number finite, rfl⟩
  | decimal d =>
      obtain rfl := BuiltinDialect.eq_of_encodeDecimal encoded
      obtain ⟨read, found, same⟩ := BuiltinDialect.exists_decode?_toText d
      exact ⟨_, _, reports_decimal d, found, same⟩
  | text text =>
      obtain rfl := Except.ok.inj encoded
      exact ⟨_, _, reports_quoted text, rfl, rfl⟩
  | date date =>
      obtain rfl := Except.ok.inj encoded
      have found : Codec.date.decode? (.text date.toText) = some (.date date) := by
        rw [Codec.decode?, readDate?_toText]
        rfl
      exact ⟨_, _, reports_quoted _, found, rfl⟩
  | time time =>
      obtain rfl := Except.ok.inj encoded
      have found : Codec.time.decode? (.text time.toText) = some (.time time) := by
        rw [Codec.decode?, readClock?_toText]
        rfl
      exact ⟨_, _, reports_quoted _, found, rfl⟩
  | datetime moment =>
      obtain rfl := Except.ok.inj encoded
      have found : Codec.datetime.decode? (.text (moment.toText " ")) =
          some (.datetime moment) := by
        rw [Codec.decode?, readMoment?_toText]
        rfl
      exact ⟨_, _, reports_quoted _, found, rfl⟩
  | _ => simp [Value.kind, restoredKinds] at simple

end Discovery

end RowQuery
