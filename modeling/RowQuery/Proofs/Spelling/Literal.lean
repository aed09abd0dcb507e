import RowQuery.Proofs.Reach.Literal
import RowQuery.Proofs.Spelling.Operation

/-!
# What literals spell

A number is written in digits, with a sign, a point and an exponent where it needs them, and so it
is an expression of the grammar.  Quoted texts and fixed words are expressions, too.
-/

namespace RowQuery

open RowQuery.Number RowQuery.Sql

/-! ## The forms of numbers -/

namespace Number

/-- A word that begins with a digit. -/
def IsWordy (text : List Char) : Prop :=
  text.head?.any isDigit = true ∧ ∀ c ∈ text, Scanner.isWordChar c = true

/-- Digits, perhaps with an exponent. -/
def IsFigures (text : List Char) : Prop :=
  IsWordy text ∨ ∃ letters exponent, text = letters ++ '-' :: exponent ∧ IsWordy letters ∧
    letters.getLast? = some 'e' ∧ IsWordy exponent

/-- A number without sign. -/
def IsMagnitude (text : List Char) : Prop :=
  IsFigures text ∨ ∃ whole rest, text = whole ++ '.' :: rest ∧ IsWordy whole ∧ IsFigures rest

/-- A number. -/
def IsNumeral (text : List Char) : Prop :=
  IsMagnitude text ∨ ∃ rest, text = '-' :: rest ∧ IsMagnitude rest

theorem isWordChar_of_isDigit {c : Char} (digit : isDigit c = true) :
    Scanner.isWordChar c = true :=
  forall_isDigit (P := fun c => Scanner.isWordChar c = true) (by decide) digit

theorem IsWordy.of_digits {text : List Char} (present : text ≠ [])
    (each : ∀ c ∈ text, isDigit c = true) : IsWordy text := by
  obtain ⟨c, rest, rfl⟩ := List.exists_cons_of_ne_nil present
  exact ⟨each c List.mem_cons_self, fun c' member => isWordChar_of_isDigit (each c' member)⟩

theorem IsWordy.digits (n : Nat) : IsWordy (digits n) :=
  .of_digits (digits_ne_nil n) (isDigit_of_mem_digits n)

theorem IsMagnitude.of_digits {text : List Char} (present : text ≠ [])
    (each : ∀ c ∈ text, isDigit c = true) : IsMagnitude text :=
  .inl (.inl (.of_digits present each))

/-- Digits on both sides of a point. -/
theorem IsMagnitude.of_halves {whole fraction : List Char} (present : whole ≠ [])
    (each : ∀ c ∈ whole, isDigit c = true) (present' : fraction ≠ [])
    (each' : ∀ c ∈ fraction, isDigit c = true) : IsMagnitude (whole ++ '.' :: fraction) :=
  .inr ⟨whole, fraction, rfl, .of_digits present each, .inl (.of_digits present' each')⟩

theorem IsMagnitude.decimal (d : Decimal) : IsMagnitude d.magnitudeChars := by
  obtain ⟨whole, fraction, text, present, length, written⟩ := d.magnitudeChars_eq
  have each : ∀ c ∈ whole ++ fraction, isDigit c = true :=
    fun c member => isDigit_of_mem_padZeros (text ▸ member)
  obtain ⟨ofWhole, ofFraction⟩ := List.forall_mem_append.1 each
  rw [written]
  split
  · exact .of_digits present ofWhole
  · rename_i places
    refine .of_halves present ofWhole ?_ ofFraction
    rintro rfl
    exact places length.symm

namespace IsNumeral

theorem int (i : Int) : IsNumeral (intText i).toList := by
  have magnitude : IsMagnitude (digits i.natAbs) := .inl (.inl (.digits _))
  rw [toList_intText]
  split
  · exact .inr ⟨_, rfl, magnitude⟩
  · exact .inl magnitude

theorem decimal (d : Decimal) : IsNumeral d.toText.toList := by
  rw [Decimal.toList_toText]
  split
  · exact .inr ⟨_, rfl, .decimal d⟩
  · exact .inl (.decimal d)

end IsNumeral

theorem isMagnitude_positional (s : Binary64.Shortest) : IsMagnitude (Binary64.positional s 1) := by
  have zeros {n : Nat} : ∀ c ∈ List.replicate n '0', isDigit c = true := by
    intro c member
    rw [List.eq_of_mem_replicate member]
    rfl
  -- One digit at least stands behind the point.
  have halves {whole fraction : List Char} (present : whole ≠ [])
      (each : ∀ c ∈ whole, isDigit c = true) (each' : ∀ c ∈ fraction, isDigit c = true) :
      IsMagnitude (if (fraction ++ List.replicate (1 - fraction.length) '0').isEmpty then whole
        else whole ++ '.' :: (fraction ++ List.replicate (1 - fraction.length) '0')) := by
    split
    · exact .of_digits present each
    · rename_i places
      exact .of_halves present each (fun none => places (List.isEmpty_iff.2 none))
        (List.forall_mem_append.2 ⟨each', zeros⟩)
  unfold Binary64.positional
  dsimp only
  split
  · exact halves (List.append_ne_nil_of_left_ne_nil (digits_ne_nil _) _)
      (List.forall_mem_append.2 ⟨isDigit_of_mem_digits _, zeros⟩) (fun _ member => nomatch member)
  · have padded (width : Nat) : ∀ c ∈ padZeros width (digits s.digits), isDigit c = true :=
      fun c member => isDigit_of_mem_padZeros member
    refine halves ?_ (fun c member => padded _ c (List.mem_of_mem_take member))
      (fun c member => padded _ c (List.mem_of_mem_drop member))
    have long : (-s.exponent).toNat + 1 ≤
        (padZeros ((-s.exponent).toNat + 1) (digits s.digits)).length := by
      simp only [padZeros, List.length_append, List.length_replicate]
      omega
    rw [Ne, ← List.length_eq_zero_iff, List.length_take]
    omega

theorem IsWordy.append {text more : List Char} (wordy : IsWordy text)
    (each : ∀ c ∈ more, Scanner.isWordChar c = true) : IsWordy (text ++ more) := by
  obtain ⟨c, rest, rfl⟩ : ∃ c rest, text = c :: rest :=
    List.exists_cons_of_ne_nil fun none => by simp [IsWordy, none] at wordy
  exact ⟨wordy.1, List.forall_mem_append.2 ⟨wordy.2, each⟩⟩

/-- Digits with an exponent behind them. -/
theorem IsFigures.raised {text : List Char} (present : text ≠ [])
    (each : ∀ c ∈ text, isDigit c = true) (exponent : Int) :
    IsFigures (text ++ 'e' :: (intText exponent).toList) := by
  have letters : IsWordy (text ++ ['e']) :=
    (IsWordy.of_digits present each).append (List.forall_mem_singleton.2 rfl)
  have raised : IsWordy (digits exponent.natAbs) := .digits _
  rw [toList_intText, List.append_cons]
  split
  · exact .inr ⟨text ++ ['e'], digits exponent.natAbs, rfl, letters, by simp, raised⟩
  · exact .inl (letters.append raised.2)

theorem isMagnitude_scientific (s : Binary64.Shortest) :
    IsMagnitude (Binary64.scientific s []) := by
  have each := isDigit_of_mem_digits s.digits
  unfold Binary64.scientific
  dsimp only
  rw [ite_self, List.nil_append]
  split
  · rename_i none
    exact absurd none (digits_ne_nil _)
  · rename_i c single
    rw [single] at each
    exact .inl (.raised (List.cons_ne_nil _ _) each _)
  · rename_i c more several written
    rw [written, List.forall_mem_cons] at each
    refine .inr ⟨[c], _, rfl, .of_digits (List.cons_ne_nil _ _) (by simpa using each.1),
      .raised ?_ each.2 _⟩
    rintro rfl
    exact several rfl

/-- The exact form of a finite double. -/
theorem IsNumeral.exact {x : Float} (number : x.isNaN = false) (finite : x.isInf = false) :
    IsNumeral (Binary64.exactText x).toList := by
  have magnitude (s : Binary64.Shortest) : IsMagnitude
      (if s.digits = 0 || (-3 ≤ Binary64.leading s && Binary64.leading s ≤ 16) then
        Binary64.positional s 1 else Binary64.scientific s []) := by
    split
    · exact isMagnitude_positional s
    · exact isMagnitude_scientific s
  unfold Binary64.exactText Binary64.write
  dsimp only
  rw [number, finite, if_neg Bool.false_ne_true, if_neg Bool.false_ne_true, String.toList_append,
    String.toList_ofList]
  split
  · exact .inr ⟨_, rfl, magnitude _⟩
  · exact .inl (magnitude _)

end Number

/-! ## The lexemes of numbers -/

namespace Sql.Scanner

variable {d : BuiltinDialect} {c : Char} {text : List Char}

theorem start_digit (digit : isDigit c = true) : start d c = ([], word [c]) := by
  have unmarked {mark : Char} (isMark : isDigit mark = false) : c ≠ mark := by
    rintro rfl
    rw [digit] at isMark
    cases isMark
  unfold start
  rw [if_neg (unmarked (by cases d <;> rfl)), if_neg (unmarked (by cases d <;> rfl)),
    if_pos (isWordChar_of_isDigit digit)]

theorem run_word (letters : List Char) (each : ∀ c ∈ text, isWordChar c = true) :
    (word letters).run d text = some ([], word (letters ++ text)) ∧
      (word letters).meetsOpener d text = false := by
  induction text generalizing letters with
  | nil =>
      rw [List.append_nil]
      exact ⟨rfl, rfl⟩
  | cons c text ih =>
      rw [List.forall_mem_cons] at each
      have continued : (word letters).continue? d c = some (word (letters ++ [c])) :=
        if_pos each.1
      have rest := ih (letters ++ [c]) each.2
      rw [List.append_assoc, List.singleton_append] at rest
      exact ⟨(run_continue continued).trans rest.1, (meetsOpener_continue continued).trans rest.2⟩

/-- A word that begins with a digit is one lexeme. -/
theorem run_wordy (wordy : IsWordy text) :
    idle.run d text = some ([], word text) ∧ idle.meetsOpener d text = false := by
  obtain ⟨head, each⟩ := wordy
  cases text with
  | nil => cases head
  | cons c text =>
      have begins : idle.step d c = some ([], word [c]) := congrArg some (start_digit head)
      obtain ⟨ran, clean⟩ := run_word (d := d) [c] (List.forall_mem_cons.1 each).2
      exact ⟨run_cons begins ran, by rw [meetsOpener, begins]; exact clean⟩

end Sql.Scanner

namespace BuiltinDialect

open Sql.Scanner Calendar

variable {d : BuiltinDialect} {hollow openers : Prop} {sql : String} {lexemes : List Lexeme}

theorem ScansTo.wordy {letters : List Char} (wordy : IsWordy letters) :
    d.ScansTo openers (String.ofList letters) [.word (String.ofList letters)] := by
  obtain ⟨ran, clean⟩ := run_wordy (d := d) wordy
  refine .closed (lexemes?_eq_some_iff.2 ⟨[], _, word letters, ?_, rfl, rfl⟩) ?_
  · rw [String.toList_ofList, ran]
  · rw [hasOpener, String.toList_ofList, clean]

/-- A word that ends before a symbol. -/
theorem ScansTo.wordy_append {letters rest : List Char} {c : Char} (wordy : IsWordy letters)
    (other : isWordChar c = false) (scans : d.ScansTo openers (String.ofList (c :: rest)) lexemes) :
    d.ScansTo openers (String.ofList (letters ++ c :: rest))
      (.word (String.ofList letters) :: lexemes) := by
  obtain ⟨known, opens⟩ := scans
  obtain ⟨early, late, last, ran, pending, rfl⟩ := lexemes?_eq_some_iff.1 known
  obtain ⟨ran', clean⟩ := run_wordy (d := d) wordy
  have ends : (word letters).continue? d c = none := by rw [continue?, other]; rfl
  rw [String.toList_ofList] at ran
  refine ⟨lexemes?_eq_some_iff.2 ⟨.word (String.ofList letters) :: early, late, last, ?_, pending,
    rfl⟩, fun found => opens ?_⟩
  · rw [String.toList_ofList]
    exact run_append ran' (run_pending rfl ends ran)
  · have apart : ∀ before ∈ letters.getLast?, isOpener before (c :: rest).head? = false := by
      intro before last'
      have wordChar := wordy.2 before (List.mem_of_getLast? last')
      have unequal {symbol : Char} (isSymbol : isWordChar symbol = false) :
          (before == symbol) = false := by
        refine beq_false_of_ne ?_
        rintro rfl
        exact absurd (wordChar.symm.trans isSymbol) (by decide)
      rw [isOpener, unequal rfl, unequal rfl]
      rfl
    rw [hasOpener, String.toList_ofList, meetsOpener_append ran' apart, clean, Bool.false_or,
      meetsOpener_pending rfl ends] at found
    rwa [hasOpener, String.toList_ofList]

theorem run_minus : idle.run d "-".toList = some ([.symbol '-'], idle) := by
  cases d <;> rfl

theorem clean_minus : d.hasOpener "-" = false := by
  cases d <;> rfl

theorem fixed?_point : d.fixed? "." = some [.symbol '.'] := by
  cases d <;> rfl

/-- Behind a minus sign that no other one follows. -/
theorem ScansTo.minus {rest : List Char} (other : rest.head? ≠ some '-')
    (scans : d.ScansTo openers (String.ofList rest) lexemes) :
    d.ScansTo openers (String.ofList ('-' :: rest)) (.symbol '-' :: lexemes) := by
  have shown : String.ofList ('-' :: rest) = "-" ++ String.ofList rest := by
    rw [← List.singleton_append, String.ofList_append]
  rw [shown]
  refine .behind run_minus clean_minus (fun c last opens => absurd opens ?_) scans
  obtain rfl : '-' = c := Option.some.inj last
  rw [String.toList_ofList]
  simpa [isOpener] using other

theorem isFigure_of_isWordy {letters : List Char} (wordy : IsWordy letters) :
    isFigure (String.ofList letters) = true := by
  rw [isFigure, String.toList_ofList]
  exact wordy.1

theorem head_ne_minus {text : List Char} (digit : text.head?.any isDigit = true) :
    text.head? ≠ some '-' := by
  intro minus
  rw [minus] at digit
  cases digit

theorem scans_figures {text : List Char} (number : IsFigures text) :
    ∃ lexemes, d.ScansTo openers (String.ofList text) lexemes ∧ Figures lexemes := by
  rcases number with wordy | ⟨letters, exponent, rfl, wordy, raised, wordy'⟩
  · exact ⟨_, .wordy wordy, .word (isFigure_of_isWordy wordy)⟩
  · refine ⟨_, .wordy_append wordy rfl (.minus (head_ne_minus wordy'.1) (.wordy wordy')),
      .raised (isFigure_of_isWordy wordy) ?_ (isFigure_of_isWordy wordy')⟩
    rw [String.toList_ofList, raised]

theorem spells_magnitude {text : List Char} (number : IsMagnitude text) :
    d.Spells hollow openers (String.ofList text) := by
  rcases number with figures | ⟨whole, rest, rfl, wordy, figures⟩
  · obtain ⟨lexemes, scans, phrase⟩ := scans_figures (d := d) figures
    exact ⟨lexemes, scans, .figures phrase⟩
  · obtain ⟨lexemes, scans, phrase⟩ := scans_figures (d := d) figures
    have shown : String.ofList ('.' :: rest) = "." ++ String.ofList rest := by
      rw [← List.singleton_append, String.ofList_append]
    have fraction : d.ScansTo openers (String.ofList ('.' :: rest)) (.symbol '.' :: lexemes) := by
      rw [shown]
      exact .opening fixed?_point scans
    exact ⟨_, .wordy_append wordy rfl fraction, .fraction (isFigure_of_isWordy wordy) phrase⟩

theorem head_of_isMagnitude {text : List Char} (number : IsMagnitude text) :
    text.head?.any isDigit = true := by
  have front {letters rest : List Char} (wordy : IsWordy letters) :
      (letters ++ rest).head?.any isDigit = true := by
    cases letters with
    | nil => cases wordy.1
    | cons c letters => exact wordy.1
  rcases number with (wordy | ⟨letters, exponent, rfl, wordy, -, -⟩) | ⟨whole, rest, rfl, wordy, -⟩
  · exact wordy.1
  · exact front wordy
  · exact front wordy

/-- Numbers are expressions. -/
theorem spells_number {text : String} (number : IsNumeral text.toList) :
    d.Spells hollow openers text := by
  rw [← String.ofList_toList (s := text)]
  rcases number with magnitude | ⟨rest, written, magnitude⟩
  · exact spells_magnitude magnitude
  · obtain ⟨lexemes, scans, phrase⟩ := spells_magnitude (d := d) magnitude
    rw [written]
    exact ⟨_, .minus (head_ne_minus (head_of_isMagnitude magnitude)) scans, .negative phrase⟩

/-! ## Quoted texts -/

/-- A quoted text behind a keyword. -/
theorem Spells.prefixed (front : String) {keyword text : String} (bare : IsBare text)
    (known : d.fixed? front = some [.word keyword]) (among : keyword ∈ literalWords) :
    d.Spells hollow openers (front ++ "'" ++ text ++ "'") := by
  have quoted : d.ScansTo openers ("'" ++ text ++ "'") [.text (String.ofList text.toList)] :=
    .of_encloses (bare.encloses d)
  simp only [String.append_assoc] at quoted ⊢
  exact ⟨_, .opening known quoted, .marked _ among⟩

/-- A quoted text that is converted. -/
theorem Spells.typed {content : List Char} {quoted back type : String}
    (encloses : d.textQuotation.Encloses content quoted) (apart : Apart back)
    (closing : d.ScansTo openers back [.symbol ':', .symbol ':', .word type])
    (among : type ∈ ["bytea", "jsonb"]) : d.Spells hollow openers (quoted ++ back) :=
  ⟨_, .operand (.of_encloses encloses) apart closing, .typed _ among⟩

/-- A truth value as a comparison of numbers. -/
theorem phrase_comparison {left right : String} (first : isFigure left = true)
    (second : isFigure right = true) :
    Phrase hollow .expression [.word left, .symbol '=', .word right] :=
  .binary (by decide : [.symbol '='] ∈ operators) (.figures (.word first))
    (.figures (.word second))

theorem spells_truthLiteral (b : Bool) : d.Spells hollow openers (d.dialect.truthLiteral b) := by
  cases d <;> cases b <;> first
    | exact spells_word rfl rfl (by decide)
    | exact ⟨_, .closed rfl rfl, phrase_comparison rfl rfl⟩
    | exact ⟨_, .closed rfl rfl, .figures (.word rfl)⟩

theorem spells_truthClause (b : Bool) : d.Spells hollow openers (d.dialect.truthClause b) := by
  cases d <;> cases b <;> first
    | exact spells_word rfl rfl (by decide)
    | exact ⟨_, .closed rfl rfl, phrase_comparison rfl rfl⟩

/-- Bytes in hexadecimal digits; the mark follows the letter without a blank. -/
theorem spells_hexadecimal (bytes : List UInt8) :
    d.Spells hollow openers ("X" ++ "'" ++ String.ofList (hexEncode bytes) ++ "'") := by
  have encloses := (IsBare.hexEncode bytes).encloses d
  have letter : idle.run d "X".toList = some ([], word ['X']) := by cases d <;> rfl
  have clean : idle.meetsOpener d "X".toList = false := by cases d <;> rfl
  have ended : (word ['X']).pending = some [.word "X"] := rfl
  have apart : (word ['X']).continue? d d.textQuotation.mark = none := by cases d <;> rfl
  have ran := run_append letter (run_quoted encloses ended apart)
  have quoted : d.ScansTo False _ _ := .of_encloses encloses
  rw [String.append_assoc] at encloses ran quoted
  rw [String.append_assoc, String.append_assoc]
  rw [← String.toList_append] at ran
  refine ⟨_, ⟨lexemes?_eq_some_iff.2 ⟨_, _, _, ran, rfl, rfl⟩, fun found => ?_⟩,
    .marked _ (by decide)⟩
  rw [hasOpener, String.toList_append, meetsOpener_append letter (by simp [isOpener]), clean,
    Bool.false_or, encloses, meetsOpener_pending ended apart, ← encloses] at found
  exact (quoted.2 found).elim

theorem spells_bytesLiteral (bytes : List UInt8) :
    d.Spells hollow openers (d.dialect.bytesLiteral bytes) := by
  cases d with
  | postgres =>
      rw [bytesLiteral_postgres, String.empty_append]
      exact .typed (markedHex_encloses bytes) rfl (.closed rfl rfl) (by decide)
  | ansi | sqlite | mysql => exact spells_hexadecimal bytes

theorem spells_dateLiteral (date : Date) :
    d.Spells hollow openers (d.dialect.dateLiteral date) := by
  cases d with
  | sqlite => exact .quoteText _
  | ansi | postgres | mysql => exact .prefixed "DATE " (IsBare.date date) rfl (by decide)

theorem spells_timeLiteral (time : Clock) :
    d.Spells hollow openers (d.dialect.timeLiteral time) := by
  cases d with
  | sqlite => exact .quoteText _
  | ansi | postgres | mysql => exact .prefixed "TIME " (IsBare.clock time) rfl (by decide)

theorem spells_datetimeLiteral (moment : Moment) :
    d.Spells hollow openers (d.dialect.datetimeLiteral moment) := by
  cases d with
  | sqlite => exact .quoteText _
  | ansi | postgres | mysql => exact .prefixed "TIMESTAMP " (IsBare.moment moment) rfl (by decide)

theorem spells_intervalLiteral {i : Interval} (written : d.dialect.intervalLiteral i = some sql) :
    d.Spells hollow openers sql := by
  cases d with
  | ansi | sqlite | mysql => cases written
  | postgres =>
      obtain rfl := Option.some.inj written
      have bare : IsBare (i.seconds.toText ++ " seconds") :=
        (IsBare.decimal i.seconds).append (by simp [IsBare])
      change postgres.Spells hollow openers
        ("INTERVAL " ++ "'" ++ i.seconds.toText ++ (" seconds" ++ "'"))
      have whole : postgres.Spells hollow openers
          ("INTERVAL " ++ "'" ++ (i.seconds.toText ++ " seconds") ++ "'") :=
        .prefixed "INTERVAL " bare rfl (by decide)
      simpa only [String.append_assoc] using whole

theorem spells_jsonLiteral (text : String) :
    d.Spells hollow openers (d.dialect.jsonLiteral text) := by
  cases d with
  | postgres =>
      exact .typed (postgres.quoteText_encloses text) rfl (.closed rfl rfl) (by decide)
  | ansi | sqlite | mysql => exact .quoteText text

theorem spells_null : d.Spells hollow openers "NULL" := by
  cases d <;> exact spells_word rfl rfl (by decide)

/-! ## Values -/

theorem spells_encodeBool (b : Bool) (type : ColumnType) :
    d.Spells hollow openers (Codec.encodeBool d.dialect b type) := by
  unfold Codec.encodeBool
  split
  · cases d <;> cases b <;> exact ⟨_, .closed rfl rfl, .figures (.word rfl)⟩
  · exact spells_truthLiteral b

theorem spells_encodeInt {i : Int64} {type : ColumnType}
    (encoded : Codec.encodeInt i type = .ok sql) : d.Spells hollow openers sql := by
  unfold Codec.encodeInt at encoded
  repeat' split at encoded
  all_goals cases encoded
  all_goals exact spells_number (.int _)

theorem spells_encodeDecimal {number : Decimal} {type : ColumnType}
    (encoded : Codec.encodeDecimal number type = .ok sql) : d.Spells hollow openers sql := by
  unfold Codec.encodeDecimal at encoded
  split at encoded
  · obtain rfl := Except.ok.inj encoded
    exact spells_number (.decimal _)
  · cases encoded

/-- Whatever a codec writes is an expression. -/
theorem spells_encode {codec : Codec} {type : ColumnType} {value : Value}
    (encoded : codec.encode d.dialect type value = .ok sql) : d.Spells hollow openers sql := by
  unfold Codec.encode at encoded
  split at encoded
  · obtain rfl := Except.ok.inj encoded
    exact spells_null
  · obtain rfl := Except.ok.inj encoded
    exact spells_encodeBool _ _
  · obtain rfl := Except.ok.inj encoded
    exact spells_encodeBool _ _
  · exact spells_encodeInt encoded
  · exact spells_encodeInt encoded
  · split at encoded
    · obtain ⟨i, -, encoded⟩ := Except.bind_eq_ok_iff.1 encoded
      exact spells_encodeInt encoded
    · cases encoded
  · split at encoded
    · cases encoded
    · rename_i finite
      rw [Bool.or_eq_true, not_or, Bool.not_eq_true, Bool.not_eq_true] at finite
      obtain rfl := Except.ok.inj encoded
      exact spells_number (.exact finite.1 finite.2)
  · obtain rfl := Except.ok.inj encoded
    exact spells_number (.int _)
  · exact spells_encodeDecimal encoded
  · exact spells_encodeDecimal encoded
  · obtain ⟨i, -, encoded⟩ := Except.bind_eq_ok_iff.1 encoded
    exact spells_encodeDecimal encoded
  · obtain rfl := Except.ok.inj encoded
    exact .quoteText _
  · obtain rfl := Except.ok.inj encoded
    exact spells_bytesLiteral _
  · obtain rfl := Except.ok.inj encoded
    split
    · exact spells_jsonLiteral _
    · exact .quoteText _
  · obtain rfl := Except.ok.inj encoded
    exact spells_dateLiteral _
  · obtain rfl := Except.ok.inj encoded
    exact spells_timeLiteral _
  · obtain rfl := Except.ok.inj encoded
    exact spells_datetimeLiteral _
  · unfold Codec.orFault at encoded
    split at encoded
    · rename_i written
      obtain rfl := Except.ok.inj encoded
      exact spells_intervalLiteral written
    · cases encoded
  · obtain rfl := Except.ok.inj encoded
    exact spells_number (.decimal _)
  · cases encoded

/-- On SQLite an interval is a number of seconds, and has a minus sign if it is negative. -/
theorem minus_iff_negative {codec : Codec} {type : ColumnType} {i : Interval}
    (encoded : codec.encode sqlite.dialect type (.interval i) = .ok sql) :
    sql.toList.head? = some '-' ↔ i.seconds.negative = true := by
  cases codec with
  | intervalSeconds =>
      obtain rfl := Except.ok.inj encoded
      have noMinus := head_ne_minus (head_of_isMagnitude (.decimal i.seconds))
      rw [Decimal.toList_toText]
      cases i.seconds.negative with
      | true => exact ⟨fun _ => rfl, fun _ => rfl⟩
      | false => exact ⟨fun minus => absurd minus noMinus, nofun⟩
  | _ => cases encoded

end BuiltinDialect

end RowQuery
