import RowQuery.Proofs.Sql.Phrase

/-!
# What the operations of dialects spell

The built-in dialects write every operation on expressions as an expression of the grammar again,
with openers of comments nowhere but in its operands.  The one exception is the difference of a date
and an interval on SQLite, where a minus sign stands in front of the interval.
-/

namespace RowQuery

open RowQuery.Sql

namespace BuiltinDialect

variable (d : BuiltinDialect) (hollow openers : Prop)

/-- The text is an expression, and there is an opener in it only if there may be one. -/
def Spells (sql : String) : Prop :=
  ∃ lexemes, d.ScansTo openers sql lexemes ∧ Phrase hollow .expression lexemes

/-- The text does not begin with a minus sign. -/
def NoMinus (sql : String) : Prop :=
  sql.toList.head? ≠ some '-'

/-- An expression that can stand behind a minus sign. -/
def SpellsUnsigned (sql : String) : Prop :=
  d.Spells hollow openers sql ∧ NoMinus sql

variable {d} {hollow openers : Prop} {l r sql text : String}

theorem NoMinus.of_head {c : Char} (head : sql.toList.head? = some c) (other : c ≠ '-') :
    NoMinus sql := by
  rw [NoMinus, head]
  exact fun same => other (Option.some.inj same)

theorem NoMinus.append {c : Char} (head : l.toList.head? = some c) (other : c ≠ '-') :
    NoMinus (l ++ r) := by
  obtain ⟨rest, letters⟩ := List.head?_eq_some_iff.1 head
  refine .of_head ?_ other
  rw [String.toList_append, letters]
  rfl

/-! ## The shapes of operations -/

namespace Spells

/-- An expression between two fixed texts. -/
theorem enclosed {front back : String} (before after : List Lexeme)
    (known : d.fixed? front = some before) (closing : d.ScansTo openers back after)
    (apart : Apart back)
    (rule : ∀ inner, Phrase hollow .expression inner →
      Phrase hollow .expression (before ++ (inner ++ after)))
    (spells : d.Spells hollow openers sql) : d.Spells hollow openers (front ++ sql ++ back) := by
  obtain ⟨lexemes, scans, phrase⟩ := spells
  refine ⟨before ++ (lexemes ++ after), ?_, rule lexemes phrase⟩
  rw [String.append_assoc]
  exact .opening known (.operand scans apart closing)

theorem bracketed (spells : d.Spells hollow openers sql) :
    d.Spells hollow openers (Text.bracketed sql) := by
  refine spells.enclosed [.symbol '('] [.symbol ')'] ?_ ?_ rfl fun _ => .bracketed
  · cases d <;> rfl
  · cases d <;> exact .closed rfl rfl

/-- An operator between two expressions. -/
theorem beside {between : String} {operator : List Lexeme} (left : d.Spells hollow openers l)
    (right : d.Spells hollow openers r) (apart : Apart between)
    (known : d.fixed? between = some operator) (among : operator ∈ operators) :
    d.Spells hollow openers (l ++ (between ++ r)) := by
  obtain ⟨first, scans, phrase⟩ := left
  obtain ⟨second, scans', phrase'⟩ := right
  exact ⟨first ++ (operator ++ second), .operand scans (apart.append r) (.opening known scans'),
    .binary among phrase phrase'⟩

theorem apart_blank (word : String) : Apart (" " ++ word ++ " ") := by
  rw [String.append_assoc]
  exact .append (.of_head rfl rfl) _

theorem spaced_eq (l word r : String) :
    RowQuery.spaced [l, word, r] = l ++ ((" " ++ word ++ " ") ++ r) := by
  simp only [RowQuery.spaced, Text.join, String.append_assoc]

/-- An operator with a blank on both sides between two expressions. -/
theorem spaced {word : String} {operator : List Lexeme} (left : d.Spells hollow openers l)
    (right : d.Spells hollow openers r) (known : d.fixed? (" " ++ word ++ " ") = some operator)
    (among : operator ∈ operators) : d.Spells hollow openers (spaced [l, word, r]) := by
  rw [spaced_eq]
  exact left.beside right (apart_blank word) known among

/-- Expressions with an operator between neighbours. -/
theorem join {between : String} {operator : List Lexeme} (apart : Apart between)
    (known : d.fixed? between = some operator) (among : operator ∈ operators)
    {parts : List String} (present : parts ≠ [])
    (each : ∀ sql ∈ parts, d.Spells hollow openers sql) :
    d.Spells hollow openers (Text.join between parts) := by
  induction parts with
  | nil => exact absurd rfl present
  | cons sql rest ih =>
      rw [List.forall_mem_cons] at each
      cases rest with
      | nil => exact each.1
      | cons other rest =>
          rw [Text.join, String.append_assoc]
          · exact each.1.beside (ih (List.cons_ne_nil _ _) each.2) apart known among
          · exact List.cons_ne_nil _ _

/-- The operands of a call or the members of a list. -/
theorem operands {parts : List String} (present : parts ≠ [])
    (each : ∀ sql ∈ parts, d.Spells hollow openers sql) :
    ∃ lexemes, d.ScansTo openers (Text.join ", " parts) lexemes ∧
      Phrase hollow .operands lexemes := by
  induction parts with
  | nil => exact absurd rfl present
  | cons sql rest ih =>
      rw [List.forall_mem_cons] at each
      obtain ⟨first, scans, phrase⟩ := each.1
      cases rest with
      | nil => exact ⟨first, scans, .single phrase⟩
      | cons other rest =>
          obtain ⟨later, scans', phrase'⟩ := ih (List.cons_ne_nil _ _) each.2
          have comma : d.fixed? ", " = some [.symbol ','] := by cases d <;> rfl
          rw [Text.join, String.append_assoc]
          · refine ⟨first ++ .symbol ',' :: later, ?_, .cons phrase phrase'⟩
            exact .operand scans (.append (.of_head rfl rfl) _) (.opening comma scans')
          · exact List.cons_ne_nil _ _

/-- The operands between fixed texts. -/
theorem listed {front : String} (before : List Lexeme) (known : d.fixed? front = some before)
    (rule : ∀ inner, Phrase hollow .operands inner →
      Phrase hollow .expression (before ++ (inner ++ [.symbol ')'])))
    {parts : List String} (present : parts ≠ [])
    (each : ∀ sql ∈ parts, d.Spells hollow openers sql) :
    d.Spells hollow openers (front ++ Text.join ", " parts ++ ")") := by
  obtain ⟨lexemes, scans, phrase⟩ := operands present each
  have closing : d.ScansTo openers ")" [.symbol ')'] := by cases d <;> exact .closed rfl rfl
  refine ⟨before ++ (lexemes ++ [.symbol ')']), ?_, rule lexemes phrase⟩
  rw [String.append_assoc]
  exact .opening known (.operand scans rfl closing)

theorem call {function : String}
    (known : d.fixed? (function ++ "(") = some [.word function, .symbol '('])
    (among : function ∈ functionWords) {parts : List String} (present : parts ≠ [])
    (each : ∀ sql ∈ parts, d.Spells hollow openers sql) :
    d.Spells hollow openers (callText function parts) :=
  listed [.word function, .symbol '('] known (fun _ => .call among) present each

/-- A conversion to another type. -/
theorem cast (spells : d.Spells hollow openers sql) (type : String) (words : List String)
    (among : words ∈ typeWords) (closing : d.ScansTo openers (" AS " ++ type ++ ")")
      (.word "AS" :: (words.map .word ++ [.symbol ')']))) :
    d.Spells hollow openers ("CAST(" ++ sql ++ (" AS " ++ type ++ ")")) := by
  have apart : Apart (" AS " ++ type ++ ")") := by
    rw [String.append_assoc]
    exact .append (.of_head rfl rfl) _
  refine spells.enclosed [.word "CAST", .symbol '('] _ ?_ closing apart fun _ => .cast among
  cases d <;> rfl

/-- Two expressions between three fixed texts. -/
theorem framed {front between back : String} (before middle after : List Lexeme)
    (known : d.fixed? front = some before) (known' : d.fixed? between = some middle)
    (closing : d.ScansTo openers back after) (apart : Apart between) (apart' : Apart back)
    (rule : ∀ first second, Phrase hollow .expression first → Phrase hollow .expression second →
      Phrase hollow .expression (before ++ (first ++ (middle ++ (second ++ after)))))
    (left : d.Spells hollow openers l) (right : d.Spells hollow openers r) :
    d.Spells hollow openers (front ++ l ++ between ++ r ++ back) := by
  obtain ⟨first, scans, phrase⟩ := left
  obtain ⟨second, scans', phrase'⟩ := right
  refine ⟨before ++ (first ++ (middle ++ (second ++ after))), ?_, rule _ _ phrase phrase'⟩
  simp only [String.append_assoc]
  exact .opening known (.operand scans (apart.append _)
    (.opening known' (.operand scans' apart' closing)))

theorem quoteText (text : String) : d.Spells hollow openers (d.dialect.quoteText text) :=
  ⟨_, .quoteText text, .text text⟩

end Spells

theorem noMinus_bracketed : NoMinus (Text.bracketed sql) := by
  rw [Text.bracketed, String.append_assoc]
  exact .append rfl (by decide)

theorem Spells.grouped (spells : d.Spells hollow openers sql) :
    d.SpellsUnsigned hollow openers (Text.bracketed sql) :=
  ⟨spells.bracketed, noMinus_bracketed⟩

/-- A call does not begin with a minus sign. -/
theorem NoMinus.call {function : String} {c : Char} (head : function.toList.head? = some c)
    (other : c ≠ '-') (parts : List String) : NoMinus (callText function parts) := by
  simp only [callText, String.append_assoc]
  exact .append head other

/-- A call with one argument. -/
theorem Spells.apply {function : String} {c : Char} (spells : d.Spells hollow openers sql)
    (known : d.fixed? (function ++ "(") = some [.word function, .symbol '('])
    (among : function ∈ functionWords) (head : function.toList.head? = some c) (other : c ≠ '-') :
    d.SpellsUnsigned hollow openers (callText function [sql]) :=
  ⟨.call known among (List.cons_ne_nil _ _) (by simpa using spells), .call head other _⟩

/-! ## Operators -/

/-- What does not begin with a minus sign, with the other sign. -/
theorem spells_negative (spells : d.SpellsUnsigned hollow openers sql) :
    d.SpellsUnsigned hollow openers ("(-" ++ sql ++ ")") := by
  obtain ⟨⟨lexemes, scans, phrase⟩, noMinus⟩ := spells
  have ran : Scanner.idle.run d "(-".toList = some ([.symbol '(', .symbol '-'], .idle) := by
    cases d <;> rfl
  have clean : d.hasOpener "(-" = false := by cases d <;> rfl
  have closing : d.ScansTo openers ")" [.symbol ')'] := by cases d <;> exact .closed rfl rfl
  refine ⟨⟨_, .signed ran clean rfl (fun minus => absurd minus noMinus) scans rfl closing,
    .bracketed (.negative phrase)⟩, ?_⟩
  rw [String.append_assoc]
  exact .append rfl (by decide)

/-- The negation of a test. -/
theorem spells_negation (spells : d.Spells hollow openers sql) :
    d.Spells hollow openers ("NOT " ++ Text.bracketed sql) := by
  obtain ⟨lexemes, scans, phrase⟩ := spells.bracketed
  have known : d.fixed? "NOT " = some [.word "NOT"] := by cases d <;> rfl
  exact ⟨_, .opening known scans, .not phrase⟩

theorem spells_compare (left : d.Spells hollow openers l) (op : Comparison)
    (right : d.Spells hollow openers r) :
    d.Spells hollow openers (d.dialect.compare l op r) := by
  have operator : ∃ operator ∈ operators, d.fixed? (" " ++ op.sql ++ " ") = some operator := by
    cases d <;> cases op <;> exact ⟨_, by decide, rfl⟩
  obtain ⟨operator, among, known⟩ := operator
  cases d <;> exact left.spaced right known among

theorem spells_binary (spells : mysql.Spells hollow openers sql) :
    mysql.Spells hollow openers ("CAST(" ++ sql ++ " AS BINARY)") :=
  spells.cast "BINARY" ["BINARY"] (by decide) (.closed rfl rfl)

theorem spells_compareText (left : d.Spells hollow openers l) (op : Comparison)
    (right : d.Spells hollow openers r) :
    d.Spells hollow openers (d.dialect.compareText l op r) := by
  cases d with
  | mysql => exact spells_compare (d := mysql) (spells_binary left) op (spells_binary right)
  | ansi | postgres | sqlite => exact spells_compare left op right

theorem spells_concat (left : d.Spells hollow openers l) (right : d.Spells hollow openers r) :
    d.SpellsUnsigned hollow openers (d.dialect.concat l r) := by
  cases d with
  | mysql =>
      refine ⟨.call rfl (by decide) (List.cons_ne_nil _ _) (by simp [left, right]), ?_⟩
      exact .call rfl (by decide) _
  | ansi | postgres | sqlite => exact (left.spaced right rfl (by decide)).grouped

theorem spells_arithmetic (left : d.Spells hollow openers l) (op : Arithmetic)
    (right : d.Spells hollow openers r) :
    d.SpellsUnsigned hollow openers (d.dialect.arithmetic l op r) := by
  have operator : ∃ operator ∈ operators, d.fixed? (" " ++ op.symbol ++ " ") = some operator := by
    cases d <;> cases op <;> exact ⟨_, by decide, rfl⟩
  obtain ⟨operator, among, known⟩ := operator
  cases d <;> exact (left.spaced right known among).grouped

theorem spells_trueDivide (left : d.Spells hollow openers l) (right : d.Spells hollow openers r) :
    d.SpellsUnsigned hollow openers (d.dialect.trueDivide l r) := by
  cases d with
  | mysql => exact (left.spaced right rfl (by decide)).grouped
  | sqlite =>
      have real : sqlite.Spells hollow openers ("CAST(" ++ l ++ " AS REAL)") :=
        left.cast "REAL" ["REAL"] (by decide) (.closed rfl rfl)
      exact (real.spaced right rfl (by decide)).grouped
  | ansi | postgres =>
      have double := left.cast "DOUBLE PRECISION" ["DOUBLE", "PRECISION"] (by decide)
        (.closed rfl rfl)
      exact (double.spaced right rfl (by decide)).grouped

theorem spells_floorModulo (left : d.Spells hollow openers l) (right : d.Spells hollow openers r) :
    d.SpellsUnsigned hollow openers (d.dialect.floorModulo l r) := by
  have step {l : String} (left : d.Spells hollow openers l) (op : Arithmetic) :
      d.Spells hollow openers (Text.bracketed (spaced [l, op.symbol, r])) := by
    have known := (spells_arithmetic left op right).1
    cases d <;> exact known
  have remainder := step (step left .mod) .add
  cases d <;> exact ⟨step remainder .mod, noMinus_bracketed⟩

/-! ## Dates, times and intervals -/

/-- A number behind an operator. -/
theorem phrase_scaled {c : Char} {figure : String} {inner : List Lexeme}
    (phrase : Phrase hollow .expression inner) (among : [.symbol c] ∈ operators)
    (digits : isFigure figure = true) :
    Phrase hollow .expression (inner ++ [.symbol c, .word figure]) :=
  .binary among phrase (.figures (.word digits))

/-- An expression in brackets that is multiplied with a number or divided by one. -/
theorem Spells.scaled {back : String} {c : Char} {figure : String}
    (spells : d.Spells hollow openers sql) (apart : Apart back)
    (closing : d.ScansTo openers back [.symbol c, .word figure, .symbol ')'])
    (among : [.symbol c] ∈ operators) (digits : isFigure figure = true) :
    d.SpellsUnsigned hollow openers ("(" ++ sql ++ back) := by
  refine ⟨spells.enclosed [.symbol '('] _ ?_ closing apart fun inner phrase => ?_, ?_⟩
  · cases d <;> rfl
  · simpa using (phrase_scaled phrase among digits).bracketed
  · rw [String.append_assoc]
    exact .append rfl (by decide)

/-- A call that is told the unit of what it takes. -/
theorem spells_timed {function : String}
    (known : mysql.fixed? (function ++ "(MICROSECOND, ") =
      some [.word function, .symbol '(', .word "MICROSECOND", .symbol ','])
    (among : function ∈ ["TIMESTAMPADD", "TIMESTAMPDIFF"])
    (left : mysql.Spells hollow openers l) (right : mysql.Spells hollow openers r) :
    mysql.Spells hollow openers (callText function ["MICROSECOND", l, r]) := by
  have whole := Spells.listed _ known (fun _ => .timed among) (List.cons_ne_nil l [r])
    (by simpa using ⟨left, right⟩)
  have shown : callText function ["MICROSECOND", l, r] =
      function ++ "(MICROSECOND, " ++ Text.join ", " [l, r] ++ ")" := by
    have unit : "(MICROSECOND, " = "(" ++ ("MICROSECOND" ++ ", ") := rfl
    simp only [callText, Text.join, unit, String.append_assoc]
  rwa [shown]

theorem spells_addMicroseconds {sign seconds moment : String} (known : sign = "" ∨ sign = "-")
    (amount : mysql.Spells hollow openers seconds) (since : mysql.Spells hollow openers moment) :
    mysql.SpellsUnsigned hollow openers (Dialect.addMicroseconds sign seconds moment) := by
  have product (inner : List Lexeme) (phrase : Phrase hollow .expression inner) :
      Phrase hollow .expression
        (.word "ROUND" :: .symbol '(' ::
          (inner ++ [.symbol '*', .word "1000000", .symbol ')'])) := by
    have microseconds := phrase_scaled phrase (by decide : [.symbol '*'] ∈ operators)
      (rfl : isFigure "1000000" = true)
    simpa using Phrase.call (by decide : "ROUND" ∈ functionWords) (.single microseconds)
  have rounded : mysql.Spells hollow openers (sign ++ "ROUND(" ++ seconds ++ " * 1000000)") := by
    rcases known with rfl | rfl
    · exact amount.enclosed [.word "ROUND", .symbol '('] _ rfl (.closed rfl rfl) rfl product
    · exact amount.enclosed [.symbol '-', .word "ROUND", .symbol '('] _ rfl (.closed rfl rfl) rfl
        fun inner phrase => .negative (product inner phrase)
  exact ⟨spells_timed rfl (by decide) rounded since, .call rfl (by decide) _⟩

theorem spells_mysqlDates {l r : Kind × String} {op : Arithmetic}
    (left : mysql.Spells hollow openers l.2) (right : mysql.Spells hollow openers r.2)
    (written : Dialect.mysqlDates l op r = some text) :
    mysql.SpellsUnsigned hollow openers text := by
  have ofDate {sign seconds moment : String} (known : sign = "" ∨ sign = "-")
      (amount : mysql.Spells hollow openers seconds) (since : mysql.Spells hollow openers moment) :
      mysql.SpellsUnsigned hollow openers
        (callText "DATE" [Dialect.addMicroseconds sign seconds moment]) :=
    (spells_addMicroseconds known amount since).1.apply rfl (by decide) rfl (by decide)
  unfold Dialect.mysqlDates at written
  split at written <;> cases written
  · exact spells_addMicroseconds (.inl rfl) right left
  · exact spells_addMicroseconds (.inr rfl) right left
  · exact spells_addMicroseconds (.inl rfl) left right
  · exact ofDate (.inl rfl) right left
  · exact ofDate (.inr rfl) right left
  · exact ofDate (.inl rfl) left right
  · have difference : mysql.Spells hollow openers
        (callText "TIMESTAMPDIFF" ["MICROSECOND", r.2, l.2]) :=
      spells_timed rfl (by decide) right left
    exact difference.scaled rfl (.closed rfl rfl) (by decide) rfl
  · have difference : mysql.Spells hollow openers (callText "DATEDIFF" [l.2, r.2]) :=
      .call rfl (by decide) (List.cons_ne_nil _ _) (by simp [left, right])
    exact difference.scaled rfl (.closed rfl rfl) (by decide) rfl

/-- A modifier for dates; behind a minus sign another one begins a comment. -/
theorem spells_secondsModifier {sign seconds : String} (known : sign = "" ∨ sign = "-")
    (signed : sign = "-" → seconds.toList.head? = some '-' → openers)
    (amount : sqlite.Spells hollow openers seconds) :
    sqlite.Spells hollow openers (Dialect.secondsModifier sign seconds) := by
  obtain ⟨lexemes, scans, phrase⟩ := amount
  have closing : sqlite.ScansTo openers ")" [.symbol ')'] := .closed rfl rfl
  have format (inner : List Lexeme) (phrase : Phrase hollow .expression inner) :
      Phrase hollow .expression (.word "printf" :: .symbol '(' :: .text "%+.6f seconds" ::
        .symbol ',' :: (inner ++ [.symbol ')'])) :=
    .call (by decide) (.cons (.text _) (.single phrase))
  rcases known with rfl | rfl
  · have rest : sqlite.ScansTo openers (seconds ++ ")") (lexemes ++ [.symbol ')']) :=
      .operand scans rfl closing
    unfold Dialect.secondsModifier
    rw [String.append_assoc]
    exact ⟨_, .opening rfl rest, format lexemes phrase⟩
  · exact ⟨_, .signed rfl rfl rfl (signed rfl) scans rfl closing, format _ (.negative phrase)⟩

theorem spells_sqliteDates {l r : Kind × String} {op : Arithmetic}
    (left : sqlite.Spells hollow openers l.2) (right : sqlite.Spells hollow openers r.2)
    (signed : l.1 = .date → op = .sub → r.1 = .interval → r.2.toList.head? = some '-' → openers)
    (written : Dialect.sqliteDates l op r = some text) :
    sqlite.SpellsUnsigned hollow openers text := by
  have moved {sign date seconds : String} (since : sqlite.Spells hollow openers date)
      (amount : sqlite.Spells hollow openers (Dialect.secondsModifier sign seconds)) :
      sqlite.SpellsUnsigned hollow openers
        (callText "date" [date, Dialect.secondsModifier sign seconds]) :=
    ⟨.call rfl (by decide) (List.cons_ne_nil _ _) (by simp [since, amount]),
      .call rfl (by decide) _⟩
  unfold Dialect.sqliteDates at written
  split at written <;> cases written
  · exact moved left (spells_secondsModifier (.inl rfl) nofun right)
  · rename_i date interval
    exact moved left (spells_secondsModifier (.inr rfl) (fun _ => signed date rfl interval) right)
  · exact moved right (spells_secondsModifier (.inl rfl) nofun left)
  · refine ⟨left.framed
      [.symbol '(', .word "CAST", .symbol '(', .symbol '(', .word "julianday", .symbol '(']
      [.symbol ')', .symbol '-', .word "julianday", .symbol '(']
      [.symbol ')', .symbol ')', .word "AS", .word "INTEGER", .symbol ')', .symbol '*',
        .word "86400", .symbol ')'] rfl rfl (.closed rfl rfl) rfl rfl
      (fun first second phrase phrase' => ?_) right, ?_⟩
    · have day {inner : List Lexeme} (phrase : Phrase hollow .expression inner) :
          Phrase hollow .expression
            (.word "julianday" :: .symbol '(' :: (inner ++ [.symbol ')'])) :=
        .call (by decide) (.single phrase)
      have difference := Phrase.binary (by decide : [.symbol '-'] ∈ operators) (day phrase)
        (day phrase')
      have days := Phrase.cast (by decide : ["INTEGER"] ∈ typeWords) difference.bracketed
      simpa using (phrase_scaled days (by decide : [.symbol '*'] ∈ operators)
        (rfl : isFigure "86400" = true)).bracketed
    · simp only [String.append_assoc]
      exact .append rfl (by decide)

theorem spells_postgresDates {l r : Kind × String} {op : Arithmetic}
    (left : postgres.Spells hollow openers l.2) (right : postgres.Spells hollow openers r.2)
    (written : Dialect.postgresDates l op r = some text) :
    postgres.SpellsUnsigned hollow openers text := by
  have plain : postgres.SpellsUnsigned hollow openers
      (Text.bracketed (spaced [l.2, op.symbol, r.2])) :=
    spells_arithmetic left op right
  have cast : postgres.SpellsUnsigned hollow openers
      ("CAST(" ++ Text.bracketed (spaced [l.2, op.symbol, r.2]) ++ " AS DATE)") := by
    refine ⟨plain.1.cast "DATE" ["DATE"] (by decide) (.closed rfl rfl), ?_⟩
    rw [String.append_assoc]
    exact .append rfl (by decide)
  unfold Dialect.postgresDates at written
  dsimp only at written
  split at written <;> cases written
  iterate 12 · exact plain
  iterate 3 · exact cast
  · refine ⟨left.framed [.symbol '(', .symbol '('] [.symbol '-']
      [.symbol ')', .symbol '*', .word "INTERVAL", .text "1 day", .symbol ')'] rfl rfl
      (.closed rfl rfl) rfl rfl (fun first second phrase phrase' => ?_) right, ?_⟩
    · have days := Phrase.binary (by decide : [.symbol '-'] ∈ operators) phrase phrase'
      have interval : Phrase hollow .expression [.word "INTERVAL", .text "1 day"] :=
        .marked _ (by decide)
      simpa using (Phrase.binary (by decide : [.symbol '*'] ∈ operators) days.bracketed
        interval).bracketed
    · simp only [String.append_assoc]
      exact .append rfl (by decide)
  · refine ⟨left.framed
      [.symbol '(', .word "EXTRACT", .symbol '(', .word "EPOCH", .word "FROM"]
      [.symbol ')', .symbol '/', .word "EXTRACT", .symbol '(', .word "EPOCH", .word "FROM"]
      [.symbol ')', .symbol ')'] rfl rfl (.closed rfl rfl) rfl rfl
      (fun first second phrase phrase' => ?_) right, ?_⟩
    · have epoch {inner : List Lexeme} (phrase : Phrase hollow .expression inner) :=
        Phrase.extract (by decide : "EPOCH" ∈ partWords) phrase
      simpa using (Phrase.binary (by decide : [.symbol '/'] ∈ operators) (epoch phrase)
        (epoch phrase')).bracketed
    · simp only [String.append_assoc]
      exact .append rfl (by decide)

theorem spells_dateArithmetic {l r : Kind × String} {op : Arithmetic}
    (written : d.dialect.dateArithmetic l op r = some text) (left : d.Spells hollow openers l.2)
    (right : d.Spells hollow openers r.2)
    (signed : d = sqlite → l.1 = .date → op = .sub → r.1 = .interval →
      r.2.toList.head? = some '-' → openers) : d.SpellsUnsigned hollow openers text := by
  cases d with
  | ansi => cases written
  | postgres => exact spells_postgresDates left right written
  | sqlite => exact spells_sqliteDates left right (signed rfl) written
  | mysql => exact spells_mysqlDates left right written

theorem spells_word {letters : String} (known : d.lexemes? letters = some [.word letters])
    (clean : d.hasOpener letters = false) (among : letters ∈ constantWords) :
    d.Spells hollow openers letters :=
  ⟨_, .closed known clean, .constant among⟩

/-- The clock of SQLite, as a call with fixed arguments. -/
theorem phrase_localtime : Phrase hollow .operands [.text "now", .symbol ',', .text "localtime"] :=
  .cons (.text _) (.single (.text _))

theorem spells_now : d.SpellsUnsigned hollow openers d.dialect.now := by
  cases d with
  | ansi | postgres => exact ⟨spells_word rfl rfl (by decide), .of_head rfl (by decide)⟩
  | sqlite =>
      exact ⟨⟨_, .closed rfl rfl, .call (by decide) phrase_localtime⟩, .of_head rfl (by decide)⟩
  | mysql =>
      have places : Phrase hollow .operands [.word "6"] := .single (.figures (.word rfl))
      exact ⟨⟨_, .closed rfl rfl, .call (by decide) places⟩, .of_head rfl (by decide)⟩

theorem spells_today : d.SpellsUnsigned hollow openers d.dialect.today := by
  cases d with
  | ansi | postgres => exact ⟨spells_word rfl rfl (by decide), .of_head rfl (by decide)⟩
  | sqlite =>
      exact ⟨⟨_, .closed rfl rfl, .call (by decide) phrase_localtime⟩, .of_head rfl (by decide)⟩
  | mysql => exact ⟨⟨_, .closed rfl rfl, .today⟩, .of_head rfl (by decide)⟩

theorem spells_extract (part : DatePart) (spells : d.Spells hollow openers sql) :
    d.SpellsUnsigned hollow openers (d.dialect.extract part sql) := by
  have keyword : part.keyword ∈ partWords := by cases part <;> decide
  have known : d.fixed? ("EXTRACT(" ++ part.keyword ++ " FROM ") =
      some [.word "EXTRACT", .symbol '(', .word part.keyword, .word "FROM"] := by
    cases d <;> cases part <;> rfl
  have closing : d.ScansTo openers ")" [.symbol ')'] := by cases d <;> exact .closed rfl rfl
  have field : d.SpellsUnsigned hollow openers
      ("EXTRACT(" ++ part.keyword ++ " FROM " ++ sql ++ ")") := by
    refine ⟨spells.enclosed _ _ known closing (.of_head rfl rfl) fun _ => .extract keyword, ?_⟩
    simp only [String.append_assoc]
    exact .append rfl (by decide)
  have floored : d.SpellsUnsigned hollow openers
      (if part = .second then
        callText "FLOOR" ["EXTRACT(" ++ part.keyword ++ " FROM " ++ sql ++ ")"]
        else "EXTRACT(" ++ part.keyword ++ " FROM " ++ sql ++ ")") := by
    split
    · exact field.1.apply (by cases d <;> rfl) (by decide) rfl (by decide)
    · exact field
  have cast {text : String} (inner : d.Spells hollow openers text) :
      d.SpellsUnsigned hollow openers ("CAST(" ++ text ++ " AS INTEGER)") := by
    refine ⟨inner.cast "INTEGER" ["INTEGER"] (by decide) ?_, ?_⟩
    · cases d <;> exact .closed rfl rfl
    · rw [String.append_assoc]
      exact .append rfl (by decide)
  cases d with
  | ansi | mysql => exact floored
  | postgres => exact cast floored.1
  | sqlite =>
      have format : sqlite.Spells hollow openers ("'" ++ Dialect.sqliteField part ++ "'") := by
        cases part <;> exact ⟨_, .closed rfl rfl, .text _⟩
      exact cast (.call rfl (by decide) (List.cons_ne_nil _ _) (by simp [format, spells]))

/-! ## Texts -/

theorem spells_lower (spells : d.Spells hollow openers sql) :
    d.SpellsUnsigned hollow openers (d.dialect.lower sql) := by
  cases d <;> exact spells.apply rfl (by decide) rfl (by decide)

theorem spells_upper (spells : d.Spells hollow openers sql) :
    d.SpellsUnsigned hollow openers (d.dialect.upper sql) := by
  cases d <;> exact spells.apply rfl (by decide) rfl (by decide)

theorem spells_length (spells : d.Spells hollow openers sql) :
    d.SpellsUnsigned hollow openers (d.dialect.length sql) := by
  cases d <;> exact spells.apply rfl (by decide) rfl (by decide)

theorem spells_escapePattern (spells : d.Spells hollow openers sql) :
    d.Spells hollow openers (d.dialect.escapePattern sql) := by
  have known : d.fixed? ("REPLACE" ++ "(") = some [.word "REPLACE", .symbol '('] := by
    cases d <;> rfl
  have replace {text : String} (inside : d.Spells hollow openers text) (old : String) :
      d.Spells hollow openers (callText "REPLACE"
        [text, d.dialect.quoteText old, d.dialect.quoteText (escapeText ++ old)]) :=
    .call known (by decide) (List.cons_ne_nil _ _) (by simp [inside, Spells.quoteText])
  cases d <;> exact replace (replace (replace spells escapeText) "%") "_"

theorem spells_like (left : d.Spells hollow openers l) (right : d.Spells hollow openers r)
    (ignoreCase : Bool) : d.Spells hollow openers (d.dialect.like l r ignoreCase).1 := by
  have tested {word l r : String} (left : d.Spells hollow openers l)
      (right : d.Spells hollow openers r)
      (known : d.fixed? (" " ++ word ++ " ") = some [.word word])
      (among : word ∈ ["LIKE", "ILIKE"]) : d.Spells hollow openers
        (spaced [l, word, r, "ESCAPE", d.dialect.quoteText escapeText]) := by
    obtain ⟨first, scans, phrase⟩ := left
    obtain ⟨second, scans', phrase'⟩ := right
    have escape : d.fixed? (" " ++ "ESCAPE" ++ " ") = some [.word "ESCAPE"] := by cases d <;> rfl
    have shown : spaced [l, word, r, "ESCAPE", d.dialect.quoteText escapeText] =
        l ++ ((" " ++ word ++ " ") ++
          (r ++ ((" " ++ "ESCAPE" ++ " ") ++ d.dialect.quoteText escapeText))) := by
      simp only [spaced, Text.join, String.append_assoc]
    rw [shown]
    exact ⟨_, .operand scans (.append (Spells.apart_blank word) _) (.opening known
      (.operand scans' (.append (Spells.apart_blank "ESCAPE") _)
        (.opening escape (.quoteText escapeText)))), .like among phrase phrase' (.text _)⟩
  have lowered {text : String} (inside : d.Spells hollow openers text) :
      d.Spells hollow openers ("LOWER(" ++ text ++ ")") := by
    refine inside.enclosed [.word "LOWER", .symbol '('] [.symbol ')'] ?_ ?_ (.of_head rfl rfl)
      fun _ phrase => .call (by decide) (.single phrase)
    · cases d <;> rfl
    · cases d <;> exact .closed rfl rfl
  cases d with
  | ansi =>
      cases ignoreCase with
      | true => exact tested (lowered left) (lowered right) rfl (by decide)
      | false => exact tested left right rfl (by decide)
  | postgres => cases ignoreCase <;> exact tested left right rfl (by decide)
  | sqlite => exact tested left right rfl (by decide)
  | mysql =>
      cases ignoreCase with
      | true => exact tested (lowered left) (lowered right) rfl (by decide)
      | false => exact tested (spells_binary left) right rfl (by decide)

end BuiltinDialect

end RowQuery
