import RowQuery.Number.Binary64
import RowQuery.Proofs.Number.Reading
import RowQuery.Proofs.Reach.Operation
import RowQuery.Proofs.Steps

/-!
# What literals keep

Literals are numbers, quoted texts and fixed words, so that every law holds of them.  The words in
a number begin with digits or with the letter of its exponent, so that they are none of the words
that mean something.
-/

namespace RowQuery

open RowQuery.Number RowQuery.Sql

/-! ## The characters of numbers -/

namespace Number

def isNumeral (c : Char) : Bool :=
  isDigit c || ['-', '.', 'e'].contains c

/-- The text has only characters of numbers. -/
def IsNumber (text : List Char) : Prop :=
  ∀ c ∈ text, isNumeral c = true

/-- A property of the digits. -/
theorem forall_isDigit {P : Char → Prop}
    (each : ∀ n : Fin 58, isDigit (Char.ofNat n) = true → P (Char.ofNat n)) {c : Char}
    (digit : isDigit c = true) : P c := by
  have below : c.toNat < 58 := by
    simp only [isDigit, Bool.and_eq_true, decide_eq_true_eq] at digit
    omega
  have same : Char.ofNat c.toNat = c := Char.ofNat_toNat c
  have here := each ⟨c.toNat, below⟩
  rw [same] at here
  exact here digit

theorem isNumeral_of_isDigit {c : Char} (digit : isDigit c = true) : isNumeral c = true := by
  rw [isNumeral, digit, Bool.true_or]

namespace IsNumber

variable {text more : List Char}

theorem append (first : IsNumber text) (second : IsNumber more) : IsNumber (text ++ more) :=
  List.forall_mem_append.2 ⟨first, second⟩

theorem cons {c : Char} (head : isNumeral c = true) (tail : IsNumber text) :
    IsNumber (c :: text) :=
  List.forall_mem_cons.2 ⟨head, tail⟩

theorem of_digits (each : ∀ c ∈ text, isDigit c = true) : IsNumber text :=
  fun c member => isNumeral_of_isDigit (each c member)

theorem int (i : Int) : IsNumber (intText i).toList := by
  rw [toList_intText]
  split
  · exact .cons rfl (.of_digits (isDigit_of_mem_digits _))
  · exact .of_digits (isDigit_of_mem_digits _)

theorem decimal (d : Decimal) : IsNumber d.toText.toList := by
  intro c member
  rcases Decimal.of_mem_toText member with digit | rfl | rfl
  · exact isNumeral_of_isDigit digit
  · rfl
  · rfl

theorem zeros (n : Nat) : IsNumber (List.replicate n '0') := by
  intro c member
  rw [List.eq_of_mem_replicate member]
  rfl

theorem positional (s : Binary64.Shortest) (least : Nat) :
    IsNumber (Binary64.positional s least) := by
  have padded (width : Nat) : IsNumber (padZeros width (digits s.digits)) :=
    .of_digits fun c member => isDigit_of_mem_padZeros member
  -- The two halves of the digits, wherever the point is.
  have halves {whole fraction : List Char} (first : IsNumber whole) (second : IsNumber fraction) :
      IsNumber (if fraction.isEmpty then whole else whole ++ '.' :: fraction) := by
    split
    · exact first
    · exact first.append (.cons rfl second)
  unfold Binary64.positional
  dsimp only
  split
  · exact halves ((of_digits (isDigit_of_mem_digits _)).append (zeros _))
      (append (fun _ member => nomatch member) (zeros _))
  · exact halves (fun c member => padded _ c (List.mem_of_mem_take member))
      (append (fun c member => padded _ c (List.mem_of_mem_drop member)) (zeros _))

theorem scientific (s : Binary64.Shortest) : IsNumber (Binary64.scientific s []) := by
  have each : IsNumber (digits s.digits) := .of_digits (isDigit_of_mem_digits _)
  have exponent (positive : Prop) [Decidable positive] (n : Int) :
      IsNumber ('e' :: ((if positive then [] else []) ++ (intText n).toList)) := by
    rw [ite_self]
    exact .cons rfl (int n)
  unfold Binary64.scientific
  dsimp only
  refine append ?_ (exponent _ _)
  split
  · exact fun _ member => nomatch member
  · rename_i first
    rwa [first] at each
  · rename_i written
    rw [written] at each
    have parts := List.forall_mem_cons.1 each
    exact .cons parts.1 (.cons rfl parts.2)

/-- The exact form of a finite double. -/
theorem exact {x : Float} (number : x.isNaN = false) (finite : x.isInf = false) :
    IsNumber (Binary64.exactText x).toList := by
  have sign : IsNumber (if Binary64.isNegative x then "-" else "").toList := by
    split
    · exact .cons rfl fun _ member => nomatch member
    · exact fun _ member => nomatch member
  unfold Binary64.exactText Binary64.write
  dsimp only
  rw [number, finite, if_neg Bool.false_ne_true, if_neg Bool.false_ne_true, String.toList_append,
    String.toList_ofList]
  refine sign.append ?_
  split
  · exact positional _ _
  · exact scientific _

end IsNumber

end Number

/-! ## The lexemes of numbers -/

namespace Sql

/-- A part of a number. -/
def Lexeme.IsNumber : Lexeme → Prop
  | word letters => ∃ c rest, letters = String.ofList (c :: rest) ∧ isNumeral c = true
  | symbol c => isNumeral c = true
  | text _ | name _ => False

/-- The letters that words begin with that mean something. -/
def initials : List Char :=
  ['I', 'L', 'R', 'J', 'O', 'C', 'M', 'S', 'A']

theorem initials_contains_toUpper {c : Char} (numeral : isNumeral c = true) :
    initials.contains c.toUpper = false := by
  rw [isNumeral, Bool.or_eq_true] at numeral
  rcases numeral with digit | other
  · exact forall_isDigit (P := fun c => initials.contains c.toUpper = false) (by decide) digit
  · simp only [List.contains_eq_mem, List.mem_cons, List.not_mem_nil, or_false,
      decide_eq_true_eq] at other
    rcases other with rfl | rfl | rfl <;> rfl

/-- A number does not begin like a word that means something. -/
theorem asciiUpper_ne {c : Char} (numeral : isNumeral c = true) (rest : List Char) {word : String}
    (known : word ∈ ["INNER", "LEFT", "RIGHT", "JOIN", "ON", "COUNT", "MIN", "MAX", "SUM", "AVG"]) :
    Text.asciiUpper (String.ofList (c :: rest)) ≠ word := by
  intro same
  have letters : c.toUpper :: rest.map Char.toUpper = word.toList := by
    rw [← same, Text.asciiUpper, String.toList_ofList, String.toList_ofList, List.map_cons]
  have other := initials_contains_toUpper numeral
  simp only [List.mem_cons, List.not_mem_nil, or_false] at known
  rcases known with rfl | rfl | rfl | rfl | rfl | rfl | rfl | rfl | rfl | rfl
  all_goals
    rw [(List.cons.inj letters).1] at other
    cases other

theorem Lexeme.IsNumber.isFixed {lexeme : Lexeme} (number : lexeme.IsNumber) :
    lexeme.isFixed false = true := by
  cases lexeme with
  | word letters =>
      obtain ⟨c, rest, rfl, numeral⟩ := number
      have other {words : List String} (known : ∀ word ∈ words, word ∈
          ["INNER", "LEFT", "RIGHT", "JOIN", "ON", "COUNT", "MIN", "MAX", "SUM", "AVG"]) :
          words.contains (Text.asciiUpper (String.ofList (c :: rest))) = false := by
        rw [List.contains_eq_mem, decide_eq_false_iff_not]
        exact fun member => asciiUpper_ne numeral rest (known _ member) rfl
      rw [Lexeme.isFixed, isJoinWord, isAggregateWord, other (by simp), other (by simp)]
      rfl
  | symbol => rfl
  | text | name => cases number

theorem Lexeme.IsNumber.shift_eq {lexeme : Lexeme} (number : lexeme.IsNumber) (depth : Nat) :
    lexeme.shift depth = some depth := by
  unfold shift
  split
  · cases number
  · cases number
  · rfl

theorem level_of_isNumber {lexemes : List Lexeme} (each : ∀ lexeme ∈ lexemes, lexeme.IsNumber)
    (depth : Nat) : level depth lexemes = some depth := by
  induction lexemes with
  | nil => rfl
  | cons lexeme lexemes ih =>
      rw [List.forall_mem_cons] at each
      rw [level, List.foldlM_cons, each.1.shift_eq depth]
      exact ih each.2

namespace Scanner

/-- Between lexemes or in a part of a number. -/
def Counts : Scanner → Prop
  | idle => True
  | word letters => ∃ c rest, letters = c :: rest ∧ isNumeral c = true
  | _ => False

variable {d : BuiltinDialect} {s : Scanner} {c : Char}

theorem start_numeral (numeral : isNumeral c = true) :
    (start d c).2.Counts ∧ ∀ lexeme ∈ (start d c).1, lexeme.IsNumber := by
  have unmarked {mark : Char} (isMark : isNumeral mark = false) : c ≠ mark := by
    rintro rfl
    rw [numeral] at isMark
    cases isMark
  unfold start
  rw [if_neg (unmarked (by cases d <;> rfl)), if_neg (unmarked (by cases d <;> rfl))]
  repeat' split
  · exact ⟨⟨c, [], rfl, numeral⟩, by simp⟩
  · exact ⟨trivial, by simp⟩
  · exact ⟨trivial, by simpa [Lexeme.IsNumber] using numeral⟩

/-- One more character of a number. -/
theorem Counts.step (counts : s.Counts) (numeral : isNumeral c = true) :
    ∃ lexemes next, s.step d c = some (lexemes, next) ∧ next.Counts ∧
      ∀ lexeme ∈ lexemes, lexeme.IsNumber := by
  obtain ⟨begun, own⟩ := start_numeral (d := d) numeral
  cases s with
  | idle => exact ⟨_, _, rfl, begun, own⟩
  | word letters =>
      obtain ⟨first, rest, rfl, numeral'⟩ := counts
      unfold Scanner.step
      rw [continue?]
      split
      · rename_i continued
        split at continued
        · obtain rfl := Option.some.inj continued
          exact ⟨_, _, rfl, ⟨first, rest ++ [c], rfl, numeral'⟩, by simp⟩
        · cases continued
      · refine ⟨_, _, rfl, begun, fun lexeme member => ?_⟩
        rcases List.mem_cons.1 member with rfl | later
        · exact ⟨first, rest, rfl, numeral'⟩
        · exact own lexeme later
  | inside | escaping | behind | dotted => exact counts.elim

theorem Counts.run {text : List Char} (number : Number.IsNumber text) (counts : s.Counts) :
    ∃ lexemes last, s.run d text = some (lexemes, last) ∧ last.Counts ∧
      ∀ lexeme ∈ lexemes, lexeme.IsNumber := by
  induction text generalizing s with
  | nil => exact ⟨[], s, rfl, counts, by simp⟩
  | cons c text ih =>
      obtain ⟨head, tail⟩ := List.forall_mem_cons.1 number
      obtain ⟨own, next, stepped, counts, each⟩ := counts.step (d := d) head
      obtain ⟨later, last, ran, counts, each'⟩ := ih tail counts
      exact ⟨own ++ later, last, run_cons stepped ran, counts,
        List.forall_mem_append.2 ⟨each, each'⟩⟩

end Scanner

end Sql

namespace BuiltinDialect

open Sql.Scanner Calendar

variable {d : BuiltinDialect} {law : d.Law} {aggregates : Bool} {sql : String}

theorem Law.Holds.number {text : String} (number : Number.IsNumber text.toList) :
    law.Holds aggregates text := by
  have idly : idle.Counts := trivial
  obtain ⟨lexemes, last, ran, counts, each⟩ := idly.run (d := d) number
  have ended : ∃ late, last.pending = some late ∧ ∀ lexeme ∈ late, lexeme.IsNumber := by
    cases last with
    | idle => exact ⟨[], rfl, by simp⟩
    | word letters =>
        obtain ⟨c, rest, rfl, numeral⟩ := counts
        exact ⟨_, rfl, fun _ member => List.mem_singleton.1 member ▸ ⟨c, rest, rfl, numeral⟩⟩
    | inside | escaping | behind | dotted => exact counts.elim
  obtain ⟨late, pending, each'⟩ := ended
  have whole := List.forall_mem_append.2 ⟨each, each'⟩
  exact .of_lexemes (lexemes?_eq_some_iff.2 ⟨lexemes, late, last, ran, pending, rfl⟩)
    (fun lexeme member => (whole lexeme member).isFixed) (level_of_isNumber whole 0)

/-! ## Quoted texts -/

theorem Law.Holds.quoted {content : List Char} {quoted : String}
    (encloses : d.textQuotation.Encloses content quoted) : law.Holds aggregates quoted :=
  .of_lexemes (lexemes?_of_encloses encloses) (by simp [Lexeme.isFixed]) rfl

/-- A quoted text behind a keyword. -/
theorem Law.Holds.prefixed (keyword : String) {text : String} (bare : IsBare text)
    (opened : d.opened? false 0 keyword = some 0) :
    law.Holds aggregates (keyword ++ "'" ++ text ++ "'") := by
  have quoted : law.Holds aggregates ("'" ++ text ++ "'") := .quoted (bare.encloses d)
  simp only [String.append_assoc] at quoted ⊢
  exact law.opening opened quoted

theorem holds_truthLiteral (b : Bool) :
    law.Holds aggregates (d.dialect.truthLiteral b) := by
  cases d <;> cases b <;> exact .of_closes rfl

theorem holds_truthClause (b : Bool) : law.Holds aggregates (d.dialect.truthClause b) := by
  cases d <;> cases b <;> exact .of_closes rfl

/-- Bytes in hexadecimal digits; the mark follows the letter without a blank. -/
theorem holds_hexadecimal (bytes : List UInt8) :
    law.Holds aggregates ("X" ++ "'" ++ String.ofList (hexEncode bytes) ++ "'") := by
  have encloses := (IsBare.hexEncode bytes).encloses d
  have letter : idle.run d "X".toList = some ([], word ['X']) := by cases d <;> rfl
  have ended : (word ['X']).pending = some [.word "X"] := rfl
  have apart : (word ['X']).continue? d d.textQuotation.mark = none := by cases d <;> rfl
  have whole := run_append letter (run_quoted encloses ended apart)
  rw [← String.toList_append, ← String.append_assoc, ← String.append_assoc] at whole
  refine .of_lexemes (lexemes?_eq_some_iff.2 ⟨_, _, _, whole, rfl, rfl⟩) ?_ rfl
  have harmless : (Lexeme.word "X").isFixed false = true := rfl
  rw [List.nil_append, List.forall_mem_append, List.forall_mem_singleton, List.forall_mem_singleton]
  exact ⟨harmless, rfl⟩

theorem holds_bytesLiteral (bytes : List UInt8) :
    law.Holds aggregates (d.dialect.bytesLiteral bytes) := by
  cases d with
  | postgres =>
      rw [bytesLiteral_postgres, String.empty_append]
      have quoted : law.Holds aggregates ("'" ++ markedHex bytes ++ "'") :=
        .quoted (markedHex_encloses bytes)
      exact law.operand quoted (separated_of_head rfl rfl) (law.closing rfl)
  | ansi | sqlite | mysql => exact holds_hexadecimal bytes

theorem holds_dateLiteral (date : Date) :
    law.Holds aggregates (d.dialect.dateLiteral date) := by
  cases d with
  | sqlite => exact .quoteText _
  | ansi | postgres | mysql => exact .prefixed "DATE " (IsBare.date date) rfl

theorem holds_timeLiteral (time : Clock) :
    law.Holds aggregates (d.dialect.timeLiteral time) := by
  cases d with
  | sqlite => exact .quoteText _
  | ansi | postgres | mysql => exact .prefixed "TIME " (IsBare.clock time) rfl

theorem holds_datetimeLiteral (moment : Moment) :
    law.Holds aggregates (d.dialect.datetimeLiteral moment) := by
  cases d with
  | sqlite => exact .quoteText _
  | ansi | postgres | mysql => exact .prefixed "TIMESTAMP " (IsBare.moment moment) rfl

theorem holds_intervalLiteral {i : Interval} (written : d.dialect.intervalLiteral i = some sql) :
    law.Holds aggregates sql := by
  cases d with
  | ansi | sqlite | mysql => cases written
  | postgres =>
      obtain rfl := Option.some.inj written
      have bare : IsBare (i.seconds.toText ++ " seconds") :=
        (IsBare.decimal i.seconds).append (by simp [IsBare])
      change law.Holds aggregates
        ("INTERVAL " ++ "'" ++ i.seconds.toText ++ (" seconds" ++ "'"))
      have whole : law.Holds aggregates
          ("INTERVAL " ++ "'" ++ (i.seconds.toText ++ " seconds") ++ "'") :=
        .prefixed "INTERVAL " bare rfl
      simpa only [String.append_assoc] using whole

theorem holds_jsonLiteral (text : String) :
    law.Holds aggregates (d.dialect.jsonLiteral text) := by
  cases d with
  | postgres =>
      have quoted : law.Holds aggregates (enclose '\'' text) :=
        .quoted (postgres.quoteText_encloses text)
      exact law.operand quoted (separated_of_head rfl rfl) (law.closing rfl)
  | ansi | sqlite | mysql => exact .quoteText text

theorem holds_null : law.Holds aggregates "NULL" := by
  cases d <;> exact .of_closes rfl

/-! ## Values -/

theorem holds_encodeBool (b : Bool) (type : ColumnType) :
    law.Holds aggregates (Codec.encodeBool d.dialect b type) := by
  unfold Codec.encodeBool
  split
  · cases d <;> cases b <;> exact .of_closes rfl
  · exact holds_truthLiteral b

theorem holds_encodeInt {i : Int64} {type : ColumnType}
    (encoded : Codec.encodeInt i type = .ok sql) : law.Holds aggregates sql := by
  unfold Codec.encodeInt at encoded
  repeat' split at encoded
  all_goals cases encoded
  all_goals exact .number (.int _)

theorem holds_encodeDecimal {number : Decimal} {type : ColumnType}
    (encoded : Codec.encodeDecimal number type = .ok sql) : law.Holds aggregates sql := by
  unfold Codec.encodeDecimal at encoded
  split at encoded
  · obtain rfl := Except.ok.inj encoded
    exact .number (.decimal _)
  · cases encoded

/-- Whatever a codec writes is a literal. -/
theorem holds_encode {codec : Codec} {type : ColumnType} {value : Value}
    (encoded : codec.encode d.dialect type value = .ok sql) : law.Holds aggregates sql := by
  unfold Codec.encode at encoded
  split at encoded
  · obtain rfl := Except.ok.inj encoded
    exact holds_null
  · obtain rfl := Except.ok.inj encoded
    exact holds_encodeBool _ _
  · obtain rfl := Except.ok.inj encoded
    exact holds_encodeBool _ _
  · exact holds_encodeInt encoded
  · exact holds_encodeInt encoded
  · split at encoded
    · obtain ⟨i, -, encoded⟩ := Except.bind_eq_ok_iff.1 encoded
      exact holds_encodeInt encoded
    · cases encoded
  · split at encoded
    · cases encoded
    · rename_i finite
      rw [Bool.or_eq_true, not_or, Bool.not_eq_true, Bool.not_eq_true] at finite
      obtain rfl := Except.ok.inj encoded
      exact .number (.exact finite.1 finite.2)
  · obtain rfl := Except.ok.inj encoded
    exact .number (.int _)
  · exact holds_encodeDecimal encoded
  · exact holds_encodeDecimal encoded
  · obtain ⟨i, -, encoded⟩ := Except.bind_eq_ok_iff.1 encoded
    exact holds_encodeDecimal encoded
  · obtain rfl := Except.ok.inj encoded
    exact .quoteText _
  · obtain rfl := Except.ok.inj encoded
    exact holds_bytesLiteral _
  · obtain rfl := Except.ok.inj encoded
    split
    · exact holds_jsonLiteral _
    · exact .quoteText _
  · obtain rfl := Except.ok.inj encoded
    exact holds_dateLiteral _
  · obtain rfl := Except.ok.inj encoded
    exact holds_timeLiteral _
  · obtain rfl := Except.ok.inj encoded
    exact holds_datetimeLiteral _
  · unfold Codec.orFault at encoded
    split at encoded
    · rename_i written
      obtain rfl := Except.ok.inj encoded
      exact holds_intervalLiteral written
    · cases encoded
  · obtain rfl := Except.ok.inj encoded
    exact .number (.decimal _)
  · cases encoded

end BuiltinDialect

end RowQuery
