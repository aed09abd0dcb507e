import RowQuery.Proofs.Reach.Operation
import RowQuery.Proofs.Sql.Reach

/-!
# Comment openers

Two minus signs side by side begin a comment, and so do a slash and a star, if they stand outside of
quotation marks.  A text that is put together has such a pair only if one of its parts has one or
two parts meet in one.
-/

namespace RowQuery

namespace Sql

/-- A character and the next one begin a comment on any database. -/
def isOpener (c : Char) (next : Option Char) : Bool :=
  (c == '-' && next == some '-') || (c == '/' && next == some '*')

/-- The character goes on with no lexeme and ends no opener. -/
def isGap (c : Char) : Bool :=
  [' ', ')', ',', ':'].contains c

theorem gap_cases {c : Char} (gap : isGap c = true) : c = ' ' ∨ c = ')' ∨ c = ',' ∨ c = ':' := by
  simpa [isGap] using gap

theorem isSeparator_of_gap {c : Char} (gap : isGap c = true) : Scanner.isSeparator c = true := by
  rcases gap_cases gap with rfl | rfl | rfl | rfl <;> rfl

theorem isOpener_gap {c : Char} (gap : isGap c = true) (before : Char) :
    isOpener before (some c) = false := by
  rcases gap_cases gap with rfl | rfl | rfl | rfl <;> simp [isOpener]

namespace Scanner

variable (d : BuiltinDialect)

/-- There is an opener in a text. -/
def meetsOpener : Scanner → List Char → Bool
  | _, [] => false
  | s, c :: text =>
      match s.step d c with
      | some (_, idle) => isOpener c text.head? || meetsOpener idle text
      | some (_, next) => meetsOpener next text
      | none => false

variable {d} {s next last : Scanner} {c : Char} {text more : List Char} {lexemes : List Lexeme}

/-- What belongs to a lexeme that has begun is no opener. -/
theorem meetsOpener_continue (continued : s.continue? d c = some next) :
    s.meetsOpener d (c :: text) = next.meetsOpener d text := by
  have stepped : s.step d c = some ([], next) := by rw [step, continued]
  have within : next ≠ idle := by
    rintro rfl
    unfold continue? at continued
    repeat' split at continued
    all_goals cases continued
  rw [meetsOpener, stepped]
  cases next with
  | idle => exact absurd rfl within
  | word | inside | escaping | behind | dotted => rfl

/-- A text that does not go on with the lexeme before it. -/
theorem meetsOpener_pending (ended : s.pending = some lexemes) (other : s.continue? d c = none) :
    s.meetsOpener d (c :: text) = idle.meetsOpener d (c :: text) := by
  have idly : idle.step d c = some (start d c) := rfl
  have stepped : s.step d c = some (lexemes ++ (start d c).1, (start d c).2) := by
    rw [step, other, ended]
    rfl
  rw [meetsOpener, meetsOpener, stepped, idly]
  cases start d c with
  | mk own next => cases next <;> rfl

/-- The openers in two texts that do not meet in one. -/
theorem meetsOpener_append (ran : s.run d text = some (lexemes, last))
    (apart : ∀ c ∈ text.getLast?, isOpener c more.head? = false) :
    s.meetsOpener d (text ++ more) = (s.meetsOpener d text || last.meetsOpener d more) := by
  induction text generalizing s lexemes with
  | nil =>
      obtain ⟨rfl, rfl⟩ := Prod.mk.inj (Option.some.inj ran)
      rw [List.nil_append, meetsOpener, Bool.false_or]
  | cons c text ih =>
      rw [run] at ran
      obtain ⟨⟨own, between⟩, stepped, rest⟩ := Option.bind_eq_some_iff.1 ran
      obtain ⟨⟨others, reached⟩, through, ended⟩ := Option.map_eq_some_iff.1 rest
      obtain ⟨rfl, rfl⟩ := Prod.mk.inj ended
      have here : isOpener c (text ++ more).head? = isOpener c text.head? := by
        cases text with
        | nil => exact (apart c rfl).trans (by simp [isOpener])
        | cons c' text => rfl
      have later := ih through fun c' last' => apart c' (by
        cases text with
        | nil => cases last'
        | cons c'' text => rwa [List.getLast?_cons_cons])
      rw [List.cons_append, meetsOpener, meetsOpener, stepped]
      cases between with
      | idle =>
          dsimp only
          rw [here, later, Bool.or_assoc]
      | word | inside | escaping | behind | dotted => exact later

/-- There is no opener between the marks. -/
theorem meetsOpener_doubled (m : Marked) (content before : List Char) :
    (inside m before).meetsOpener d ((m.quotation d).doubled content ++ [(m.quotation d).mark]) =
      false := by
  induction content generalizing before with
  | nil => exact meetsOpener_continue (if_pos rfl)
  | cons c content ih =>
      have rest := ih (before ++ [c])
      rw [Quotation.doubled_cons, ← rest]
      cases special : (m.quotation d).isSpecial c with
      | false => exact meetsOpener_continue (continue?_plain special)
      | true =>
          obtain ⟨next, first, second⟩ := continue?_special special
          exact (meetsOpener_continue first).trans (meetsOpener_continue second)

theorem meetsOpener_begin {own : List Lexeme} {m : Marked}
    (begins : s.step d c = some (own, inside m [])) :
    s.meetsOpener d (c :: text) = (inside m []).meetsOpener d text := by
  rw [meetsOpener, begins]

/-- Where a comment needs no blank and has no mark of its own the openers are the comments. -/
theorem meetsOpener_eq (plain : d ≠ .mysql) : s.meetsOpener d text = s.meetsComment d text := by
  have opens (c : Char) (text : List Char) : isOpener c text.head? = d.opensComment c text := by
    unfold BuiltinDialect.opensComment
    split
    · simp [isOpener, plain]
    · simp [isOpener]
    · rename_i noMinus noStar
      have next : text.head? ≠ some '-' ∧ text.head? ≠ some '*' := by
        constructor <;> intro head <;> obtain ⟨rest, rfl⟩ := List.head?_eq_some_iff.1 head
        · exact noMinus rest rfl
        · exact noStar rest rfl
      rw [isOpener, beq_eq_false_iff_ne.2 next.1, beq_eq_false_iff_ne.2 next.2,
        beq_eq_false_iff_ne.2 plain, Bool.and_false, Bool.and_false, Bool.false_and, Bool.or_self]
  induction text generalizing s with
  | nil => rfl
  | cons c text ih =>
      rw [meetsOpener, meetsComment]
      cases s.step d c with
      | none => rfl
      | some stepped =>
          obtain ⟨own, next⟩ := stepped
          cases next with
          | idle =>
              dsimp only
              rw [opens, ih]
          | word | inside | escaping | behind | dotted => exact ih

end Scanner

end Sql

open Sql Scanner

namespace BuiltinDialect

variable (d : BuiltinDialect)

/-- There is a comment opener in the text, outside of quotation marks. -/
def hasOpener (sql : String) : Bool :=
  idle.meetsOpener d sql.toList

/-- A text and its lexemes.  There is an opener in it only if there may be one. -/
def ScansTo (openers : Prop) (sql : String) (lexemes : List Lexeme) : Prop :=
  d.lexemes? sql = some lexemes ∧ (d.hasOpener sql = true → openers)

/-- The lexemes of a fixed text that an expression of any kind can follow. -/
def fixed? (fixed : String) : Option (List Lexeme) :=
  match idle.run d fixed.toList with
  | some (lexemes, idle) =>
      if d.hasOpener fixed || fixed.toList.getLast?.any ['-', '/'].contains then none
      else some lexemes
  | _ => none

/-- The text can follow an expression of any kind. -/
def Apart (text : String) : Prop :=
  text.toList.head?.any isGap = true

variable {d} {openers : Prop} {fixed sql text : String} {before lexemes later : List Lexeme}

theorem hasOpener_eq_hasComment (plain : d ≠ mysql) : d.hasOpener sql = d.hasComment sql :=
  meetsOpener_eq plain

theorem Apart.of_head {c : Char} (head : text.toList.head? = some c) (gap : isGap c = true) :
    Apart text := by
  rw [Apart, head]
  exact gap

theorem Apart.append (apart : Apart text) (more : String) : Apart (text ++ more) := by
  unfold Apart at apart ⊢
  rw [String.toList_append]
  cases letters : text.toList with
  | nil =>
      rw [letters] at apart
      cases apart
  | cons c rest =>
      rw [letters] at apart
      exact apart

namespace ScansTo

/-- Behind a fixed text there is an opener if the texts meet in one. -/
theorem behind (ran : idle.run d fixed.toList = some (before, idle))
    (clean : d.hasOpener fixed = false)
    (meets : ∀ c ∈ fixed.toList.getLast?, isOpener c text.toList.head? = true → openers)
    (rest : d.ScansTo openers text later) :
    d.ScansTo openers (fixed ++ text) (before ++ later) := by
  refine ⟨lexemes?_append_of_idle ran rest.1, fun found => ?_⟩
  by_cases may : openers
  · exact may
  · have apart : ∀ c ∈ fixed.toList.getLast?, isOpener c text.toList.head? = false :=
      fun c last => Bool.eq_false_iff.2 fun opens => may (meets c last opens)
    rw [hasOpener, String.toList_append, meetsOpener_append ran apart, Bool.or_eq_true] at found
    rcases found with own | other
    · exact absurd (clean.symm.trans own) Bool.false_ne_true
    · exact rest.2 other

theorem opening (known : d.fixed? fixed = some before) (rest : d.ScansTo openers text later) :
    d.ScansTo openers (fixed ++ text) (before ++ later) := by
  unfold fixed? at known
  split at known
  · rename_i ran
    split at known
    · cases known
    · rename_i harmless
      obtain rfl := Option.some.inj known
      rw [Bool.or_eq_true, not_or, Bool.not_eq_true, Option.any_eq_true] at harmless
      refine behind ran harmless.1 (fun c last opens => ?_) rest
      refine absurd ⟨c, last, ?_⟩ harmless.2
      rcases Bool.or_eq_true_iff.1 opens with minus | slash
      · obtain rfl := eq_of_beq (Bool.and_eq_true_iff.1 minus).1
        rfl
      · obtain rfl := eq_of_beq (Bool.and_eq_true_iff.1 slash).1
        rfl
  · cases known

theorem operand (scans : d.ScansTo openers sql lexemes) (apart : Apart text)
    (rest : d.ScansTo openers text later) : d.ScansTo openers (sql ++ text) (lexemes ++ later) := by
  obtain ⟨c, head, gap⟩ := (Option.any_eq_true ..).1 apart
  have separated : Separated text := separated_of_head head (isSeparator_of_gap gap)
  refine ⟨lexemes?_append_of_separated scans.1 separated rest.1, fun found => ?_⟩
  obtain ⟨early, late, last, ran, ended, -⟩ := lexemes?_eq_some_iff.1 scans.1
  have meets : ∀ before ∈ sql.toList.getLast?, isOpener before text.toList.head? = false := by
    intro before _
    rw [head]
    exact isOpener_gap gap before
  rw [hasOpener, String.toList_append, meetsOpener_append ran meets, Bool.or_eq_true] at found
  rcases found with own | other
  · exact scans.2 own
  · obtain ⟨letters, spelled⟩ := List.head?_eq_some_iff.1 head
    rw [spelled, meetsOpener_pending ended (continue?_separator ended (isSeparator_of_gap gap)),
      ← spelled] at other
    exact rest.2 other

/-- Behind a minus sign an operand makes an opener if it begins with another one. -/
theorem signed (ran : idle.run d fixed.toList = some (before, idle))
    (clean : d.hasOpener fixed = false) (last : fixed.toList.getLast? = some '-')
    (minus : sql.toList.head? = some '-' → openers) (scans : d.ScansTo openers sql lexemes)
    (apart : Apart text) (rest : d.ScansTo openers text later) :
    d.ScansTo openers (fixed ++ sql ++ text) (before ++ (lexemes ++ later)) := by
  rw [String.append_assoc]
  refine behind ran clean (fun c final opens => ?_) (scans.operand apart rest)
  obtain rfl : '-' = c := Option.some.inj (last.symm.trans final)
  rw [String.toList_append] at opens
  cases letters : sql.toList with
  | nil =>
      obtain ⟨c, head, gap⟩ := (Option.any_eq_true ..).1 apart
      rw [letters, List.nil_append, head, isOpener_gap gap] at opens
      cases opens
  | cons c more =>
      rw [letters] at opens
      rw [letters] at minus
      exact minus (by simpa [isOpener] using opens)

/-- A fixed text. -/
theorem closed (known : d.lexemes? text = some lexemes) (clean : d.hasOpener text = false) :
    d.ScansTo openers text lexemes :=
  ⟨known, fun found => absurd (clean.symm.trans found) Bool.false_ne_true⟩

/-! ## Quoted texts and names -/

theorem of_encloses {content : List Char} {quoted : String}
    (encloses : d.textQuotation.Encloses content quoted) :
    d.ScansTo openers quoted [.text (String.ofList content)] := by
  refine ⟨lexemes?_of_encloses encloses, fun found => ?_⟩
  have begins : idle.step d d.textQuotation.mark = some ([], inside .text []) := by
    rw [step, continue?, start, if_pos rfl]
    rfl
  rw [hasOpener, encloses, meetsOpener_begin begins] at found
  exact absurd (found.symm.trans (meetsOpener_doubled .text content [])) (by decide)

theorem quoteText (text : String) : d.ScansTo openers (d.dialect.quoteText text) [.text text] := by
  have scans : d.ScansTo openers (d.dialect.quoteText text) _ :=
    of_encloses (d.quoteText_encloses text)
  rwa [String.ofList_toList] at scans

theorem clean_quoteName {s : Scanner} {own : List Lexeme} {path : List String} (name : String)
    (begins : s.step d d.nameQuotation.mark = some (own, inside (.name path) [])) :
    s.meetsOpener d (d.dialect.quoteName name).toList = false := by
  rw [d.quoteName_encloses name]
  exact (meetsOpener_begin begins).trans (meetsOpener_doubled (.name path) name.toList [])

theorem quoteName (name : String) :
    d.ScansTo openers (d.dialect.quoteName name) [.name [name]] := by
  refine ⟨lexemes?_quoteName name, fun found => ?_⟩
  exact absurd (found.symm.trans (clean_quoteName name idle_step_nameMark)) (by decide)

theorem qualified (label name : String) :
    d.ScansTo openers (d.dialect.quoteName label ++ "." ++ d.dialect.quoteName name)
      [.name [label, name]] := by
  refine ⟨lexemes?_qualified label name, fun found => ?_⟩
  have ran := run_quoteName (d := d) label idle_step_nameMark
  have apart : ∀ c ∈ (d.dialect.quoteName label).toList.getLast?,
      isOpener c ('.' :: (d.dialect.quoteName name).toList).head? = false :=
    fun c _ => by simp [isOpener]
  have behindDot := (meetsOpener_continue (d := d) (continue?_dot label)).trans
    (clean_quoteName name (dotted_step_nameMark [label]))
  have clean := meetsOpener_append ran apart
  rw [clean_quoteName label idle_step_nameMark, behindDot] at clean
  rw [hasOpener, String.append_assoc, String.toList_append, String.toList_append] at found
  exact absurd (found.symm.trans clean) (by decide)

end ScansTo

end BuiltinDialect

end RowQuery

/-!
# A grammar of SQL expressions

The expressions that are written for terms, as lexemes: literals, names, operators between operands,
tests, calls and conversions.  No expression is empty, so in everything that the grammar derives
each operand of an operator, each argument of a call and each member of a list has a value somewhere
in it.

One rule can be switched on, by which an operand may be missing.
-/

namespace RowQuery

open RowQuery.Number

namespace Sql

/-! ## Vocabulary -/

/-- The words that stand for values. -/
def constantWords : List String :=
  ["TRUE", "FALSE", "NULL", "CURRENT_TIMESTAMP", "CURRENT_DATE", "LOCALTIMESTAMP"]

/-- The words in front of a quoted text that is no text. -/
def literalWords : List String :=
  ["DATE", "TIME", "TIMESTAMP", "INTERVAL", "X"]

/-- What stands between two operands. -/
def operators : List (List Lexeme) :=
  [[.symbol '='], [.symbol '<', .symbol '>'], [.symbol '<'], [.symbol '<', .symbol '='],
    [.symbol '>'], [.symbol '>', .symbol '='], [.symbol '+'], [.symbol '-'], [.symbol '*'],
    [.symbol '/'], [.symbol '%'], [.symbol '|', .symbol '|'], [.word "AND"], [.word "OR"]]

/-- The functions that take any arguments. -/
def functionWords : List String :=
  ["COUNT", "MIN", "MAX", "SUM", "AVG", "ABS", "FLOOR", "ROUND", "LOWER", "UPPER", "CHAR_LENGTH",
    "LENGTH", "CONCAT", "REPLACE", "DATE", "DATEDIFF", "NOW", "date", "datetime", "julianday",
    "strftime", "printf"]

/-- The types that values are converted to. -/
def typeWords : List (List String) :=
  [["BINARY"], ["DATE"], ["DOUBLE", "PRECISION"], ["INTEGER"], ["REAL"]]

/-- The parts of dates and times. -/
def partWords : List String :=
  ["YEAR", "MONTH", "DAY", "HOUR", "MINUTE", "SECOND", "EPOCH"]

/-- A word that begins with a digit. -/
def isFigure (letters : String) : Bool :=
  letters.toList.head?.any isDigit

/-- The digits of a number, perhaps with an exponent, the sign of which stands apart. -/
inductive Figures : List Lexeme → Prop
  | word {letters : String} : isFigure letters = true → Figures [.word letters]
  | raised {letters exponent : String} : isFigure letters = true →
      letters.toList.getLast? = some 'e' → isFigure exponent = true →
      Figures [.word letters, .symbol '-', .word exponent]

/-! ## Phrases -/

inductive Role where
  | expression
  /-- One or more expressions with commas between them. -/
  | operands

/-- What the lexemes of an expression are; `hollow` tells whether operands may be missing. -/
inductive Phrase (hollow : Prop) : Role → List Lexeme → Prop
  | constant {letters : String} : letters ∈ constantWords →
      Phrase hollow .expression [.word letters]
  | figures {number : List Lexeme} : Figures number → Phrase hollow .expression number
  | fraction {whole : String} {number : List Lexeme} : isFigure whole = true → Figures number →
      Phrase hollow .expression (.word whole :: .symbol '.' :: number)
  | text (content : String) : Phrase hollow .expression [.text content]
  | marked {keyword : String} (content : String) : keyword ∈ literalWords →
      Phrase hollow .expression [.word keyword, .text content]
  | typed {type : String} (content : String) : type ∈ ["bytea", "jsonb"] →
      Phrase hollow .expression [.text content, .symbol ':', .symbol ':', .word type]
  | name (path : List String) : Phrase hollow .expression [.name path]
  | bracketed {inner : List Lexeme} : Phrase hollow .expression inner →
      Phrase hollow .expression (.symbol '(' :: (inner ++ [.symbol ')']))
  | negative {inner : List Lexeme} : Phrase hollow .expression inner →
      Phrase hollow .expression (.symbol '-' :: inner)
  | not {inner : List Lexeme} : Phrase hollow .expression inner →
      Phrase hollow .expression (.word "NOT" :: inner)
  | binary {l operator r : List Lexeme} : operator ∈ operators → Phrase hollow .expression l →
      Phrase hollow .expression r → Phrase hollow .expression (l ++ (operator ++ r))
  | like {word : String} {l pattern escape : List Lexeme} : word ∈ ["LIKE", "ILIKE"] →
      Phrase hollow .expression l → Phrase hollow .expression pattern →
      Phrase hollow .expression escape →
      Phrase hollow .expression (l ++ (.word word :: (pattern ++ (.word "ESCAPE" :: escape))))
  | isNull {inner : List Lexeme} : Phrase hollow .expression inner →
      Phrase hollow .expression (inner ++ [.word "IS", .word "NULL"])
  | isNotNull {inner : List Lexeme} : Phrase hollow .expression inner →
      Phrase hollow .expression (inner ++ [.word "IS", .word "NOT", .word "NULL"])
  | among {item members : List Lexeme} : Phrase hollow .expression item →
      Phrase hollow .operands members → Phrase hollow .expression
        (item ++ (.word "IN" :: .symbol '(' :: (members ++ [.symbol ')'])))
  | notAmong {item members : List Lexeme} : Phrase hollow .expression item →
      Phrase hollow .operands members → Phrase hollow .expression
        (item ++ (.word "NOT" :: .word "IN" :: .symbol '(' :: (members ++ [.symbol ')'])))
  | call {function : String} {arguments : List Lexeme} : function ∈ functionWords →
      Phrase hollow .operands arguments →
      Phrase hollow .expression (.word function :: .symbol '(' :: (arguments ++ [.symbol ')']))
  | timed {function : String} {arguments : List Lexeme} :
      function ∈ ["TIMESTAMPADD", "TIMESTAMPDIFF"] → Phrase hollow .operands arguments →
      Phrase hollow .expression (.word function :: .symbol '(' :: .word "MICROSECOND" ::
        .symbol ',' :: (arguments ++ [.symbol ')']))
  | cast {type : List String} {inner : List Lexeme} : type ∈ typeWords →
      Phrase hollow .expression inner → Phrase hollow .expression
        (.word "CAST" :: .symbol '(' ::
          (inner ++ (.word "AS" :: (type.map .word ++ [.symbol ')']))))
  | extract {part : String} {inner : List Lexeme} : part ∈ partWords →
      Phrase hollow .expression inner → Phrase hollow .expression
        (.word "EXTRACT" :: .symbol '(' :: .word part :: .word "FROM" :: (inner ++ [.symbol ')']))
  | today : Phrase hollow .expression [.word "CURDATE", .symbol '(', .symbol ')']
  | rows : Phrase hollow .expression [.word "COUNT", .symbol '(', .symbol '*', .symbol ')']
  | missing : hollow → Phrase hollow .expression []
  | single {inner : List Lexeme} : Phrase hollow .expression inner → Phrase hollow .operands inner
  | cons {first rest : List Lexeme} : Phrase hollow .expression first →
      Phrase hollow .operands rest → Phrase hollow .operands (first ++ .symbol ',' :: rest)

/-- The lexeme stands for a value, or as a star for all rows. -/
def Lexeme.isValue : Lexeme → Bool
  | text _ | name _ => true
  | word letters => constantWords.contains letters || isFigure letters || letters == "CURDATE"
  | symbol c => c == '*'

theorem Figures.exists_value {number : List Lexeme} (figures : Figures number) :
    ∃ lexeme ∈ number, lexeme.isValue = true := by
  cases figures with
  | word figure | raised figure =>
      exact ⟨_, List.mem_cons_self, by simp [Lexeme.isValue, figure]⟩

/-- There is a value in every expression, and so no operand is empty. -/
theorem Phrase.exists_value {role : Role} {lexemes : List Lexeme}
    (phrase : Phrase False role lexemes) : ∃ lexeme ∈ lexemes, lexeme.isValue = true := by
  induction phrase with
  | constant known => exact ⟨_, List.mem_singleton_self _, by simp [Lexeme.isValue, known]⟩
  | figures figures => exact figures.exists_value
  | fraction _ figures =>
      obtain ⟨lexeme, member, value⟩ := figures.exists_value
      exact ⟨lexeme, by simp [member], value⟩
  | text | typed | name => exact ⟨_, List.mem_cons_self, rfl⟩
  | marked content => exact ⟨.text content, by simp, rfl⟩
  | today => exact ⟨_, List.mem_cons_self, by decide⟩
  | rows => exact ⟨.symbol '*', by simp, rfl⟩
  | missing never => exact never.elim
  | bracketed _ ih | negative _ ih | not _ ih | isNull _ ih | isNotNull _ ih | cast _ _ ih
  | extract _ _ ih | call _ _ ih | timed _ _ ih | single _ ih =>
      obtain ⟨lexeme, member, value⟩ := ih
      exact ⟨lexeme, by simp [member], value⟩
  | binary _ _ _ ih | like _ _ _ _ ih | among _ _ ih | notAmong _ _ ih | cons _ _ ih =>
      obtain ⟨lexeme, member, value⟩ := ih
      exact ⟨lexeme, by simp [member], value⟩

theorem Phrase.ne_nil {role : Role} {lexemes : List Lexeme} (phrase : Phrase False role lexemes) :
    lexemes ≠ [] := by
  rintro rfl
  obtain ⟨_, member, -⟩ := phrase.exists_value
  cases member

/-! ## Words -/

/-- The words of expressions but for figures. -/
def phraseWords : List String :=
  constantWords ++ literalWords ++ functionWords ++ typeWords.flatten ++ partWords ++
    ["bytea", "jsonb", "NOT", "AND", "OR", "LIKE", "ILIKE", "ESCAPE", "IS", "IN", "TIMESTAMPADD",
      "TIMESTAMPDIFF", "MICROSECOND", "CAST", "AS", "EXTRACT", "FROM", "CURDATE"]

/-- Words stand in expressions only if they are known. -/
def Lexeme.isKnown : Lexeme → Bool
  | word letters => isFigure letters || phraseWords.contains letters
  | text _ | name _ | symbol _ => true

theorem Figures.all_isKnown {number : List Lexeme} (figures : Figures number) :
    number.all Lexeme.isKnown = true := by
  cases figures with
  | word figure => simp [Lexeme.isKnown, figure]
  | raised figure _ figure' => simp [Lexeme.isKnown, figure, figure']

theorem Phrase.all_isKnown {hollow : Prop} {role : Role} {lexemes : List Lexeme}
    (phrase : Phrase hollow role lexemes) : lexemes.all Lexeme.isKnown = true := by
  have known {words : List String} {letters : String} (among : letters ∈ words)
      (each : ∀ letters ∈ words, (Lexeme.word letters).isKnown = true) :
      (Lexeme.word letters).isKnown = true := each letters among
  induction phrase with
  | constant among => simp [known among (by decide)]
  | figures figures => exact figures.all_isKnown
  | fraction figure figures => simp [Lexeme.isKnown, figure, figures.all_isKnown]
  | text | name | today | rows | missing => rfl
  | marked _ among | typed _ among =>
      simp only [List.all_cons, List.all_nil, known among (by decide)]
      rfl
  | binary among _ _ left right =>
      have operator : ∀ operator ∈ operators, operator.all Lexeme.isKnown = true := by decide
      simp only [List.all_append, left, operator _ among, right, Bool.and_self]
  | like among _ _ _ left pattern escape =>
      simp only [List.all_append, List.all_cons, left, known among (by decide), pattern, escape]
      rfl
  | single _ ih => exact ih
  | bracketed _ ih | negative _ ih | not _ ih | isNull _ ih | isNotNull _ ih =>
      simp only [List.all_append, List.all_cons, List.all_nil, ih]
      rfl
  | among _ _ item members | notAmong _ _ item members | cons _ _ item members =>
      simp only [List.all_append, List.all_cons, List.all_nil, item, members]
      rfl
  | call among _ ih | timed among _ ih | extract among _ ih =>
      simp only [List.all_append, List.all_cons, List.all_nil, known among (by decide), ih]
      rfl
  | cast among _ ih =>
      have type : ∀ type ∈ typeWords, (type.map Lexeme.word).all Lexeme.isKnown = true := by
        decide
      simp only [List.all_append, List.all_cons, List.all_nil, type _ among, ih]
      rfl

/-! ## Brackets -/

section

variable (depth : Nat) (lexemes later : List Lexeme)

theorem level_append_eq :
    level depth (lexemes ++ later) = (level depth lexemes).bind fun next => level next later :=
  List.foldlM_append

theorem level_word (letters : String) :
    level depth (.word letters :: lexemes) = level depth lexemes := by
  rw [level, List.foldlM_cons]
  rfl

theorem level_words (words : List String) : level depth (words.map .word) = some depth := by
  induction words with
  | nil => rfl
  | cons word words ih => rw [List.map_cons, level_word, ih]

theorem level_text (content : String) :
    level depth (.text content :: lexemes) = level depth lexemes := by
  rw [level, List.foldlM_cons]
  rfl

theorem level_open : level depth (.symbol '(' :: lexemes) = level (depth + 1) lexemes := by
  rw [level, List.foldlM_cons]
  rfl

theorem level_close : level (depth + 1) (.symbol ')' :: lexemes) = level depth lexemes := by
  rw [level, List.foldlM_cons]
  rfl

theorem level_symbol {c : Char} (plain : c ≠ '(' ∧ c ≠ ')') :
    level depth (.symbol c :: lexemes) = level depth lexemes := by
  have shifted : (Lexeme.symbol c).shift depth = some depth := by
    unfold Lexeme.shift
    split
    · rename_i same
      exact absurd (Lexeme.symbol.inj same) plain.1
    · rename_i same
      exact absurd (Lexeme.symbol.inj same) plain.2
    · rfl
  rw [level, List.foldlM_cons, shifted]
  rfl

end

/-- The brackets are balanced. -/
theorem Phrase.level_eq {hollow : Prop} {role : Role} {lexemes : List Lexeme}
    (phrase : Phrase hollow role lexemes) (depth : Nat) : level depth lexemes = some depth := by
  have figures_level {number : List Lexeme} (figures : Figures number) (depth : Nat) :
      level depth number = some depth := by
    cases figures <;> simp [level_word, level_symbol] <;> rfl
  induction phrase generalizing depth with
  | constant | text | marked | name | today | rows | missing => rfl
  | typed => simp [level_text, level_symbol, level_word]; rfl
  | figures figures => exact figures_level figures depth
  | fraction _ figures => rw [level_word, level_symbol _ _ (by decide), figures_level figures]
  | binary among _ _ left right =>
      have operator : ∀ operator ∈ operators, level 0 operator = some 0 := by decide
      have between := level_add (operator _ among) depth
      rw [Nat.add_zero] at between
      simp [level_append_eq, left, right, between]
  | bracketed _ ih | negative _ ih | not _ ih | isNull _ ih | isNotNull _ ih | single _ ih
  | call _ _ ih | timed _ _ ih | extract _ _ ih =>
      simp [level_append_eq, level_open, level_close, level_word, level_symbol, ih] <;> rfl
  | cast _ _ ih =>
      simp [level_append_eq, level_open, level_close, level_word, level_words, ih] <;> rfl
  | like _ _ _ _ left pattern escape =>
      simp [level_append_eq, level_word, left, pattern, escape]
  | among _ _ item members | notAmong _ _ item members =>
      simp [level_append_eq, level_open, level_close, level_word, item, members] <;> rfl
  | cons _ _ first rest => simp [level_append_eq, level_symbol, first, rest]

end Sql

end RowQuery
