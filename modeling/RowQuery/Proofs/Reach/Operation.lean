import RowQuery.Proofs.Sql.Reach

/-!
# What the operations of dialects keep

The built-in dialects write every operation on expressions as an expression again: the operands
stand between fixed texts that close their brackets and call no aggregate.  So a law of the
operands is one of the operation.
-/

namespace RowQuery

open RowQuery.Sql

namespace BuiltinDialect

variable {d : BuiltinDialect} {law : d.Law} {aggregates : Bool} {l r sql : String}

/-! ## The shapes of operations -/

namespace Law.Holds

theorem bracketed (holds : law.Holds aggregates sql) :
    law.Holds aggregates (Text.bracketed sql) :=
  holds.enclosed 1 (by cases d <;> rfl) separated_bracket (by cases d <;> rfl)

/-- A fixed text with a blank on both sides between two expressions. -/
theorem spaced {word : String} (left : law.Holds aggregates l)
    (right : law.Holds aggregates r)
    (opened : d.opened? false 0 (" " ++ word ++ " ") = some 0) :
    law.Holds aggregates (spaced [l, word, r]) := by
  have separated : Separated (" " ++ word ++ " ") := by
    rw [String.append_assoc]
    exact separated_append (separated_of_head rfl rfl) (by decide)
  have present : " " ++ word ++ " " ≠ "" := by
    intro empty
    have blank := congrArg String.toList empty
    simp at blank
  have whole := left.beside right separated present opened
  rw [String.append_assoc, String.append_assoc] at whole
  simpa only [RowQuery.spaced, Text.join, String.append_assoc] using whole

/-- Expressions with a fixed text between neighbours. -/
theorem join {between : String} (separated : Separated between) (present : between ≠ "")
    (opened : d.opened? false 0 between = some 0) {operands : List String}
    (each : ∀ sql ∈ operands, law.Holds aggregates sql) :
    law.Holds aggregates (Text.join between operands) := by
  induction operands with
  | nil => exact .of_closes (by cases d <;> rfl)
  | cons sql rest ih =>
      rw [List.forall_mem_cons] at each
      cases rest with
      | nil => exact each.1
      | cons other rest =>
          rw [Text.join, String.append_assoc]
          · exact each.1.beside (ih each.2) separated present opened
          · exact List.cons_ne_nil _ _

theorem list {operands : List String} (each : ∀ sql ∈ operands, law.Holds aggregates sql) :
    law.Holds aggregates (Text.join ", " operands) :=
  join (separated_of_head rfl rfl) (by decide) (by cases d <;> rfl) each

/-- A call of a function that is no aggregate. -/
theorem call {function : String} (opened : d.opened? false 0 (function ++ "(") = some 1)
    {operands : List String} (each : ∀ sql ∈ operands, law.Holds aggregates sql) :
    law.Holds aggregates (callText function operands) :=
  (list each).enclosed 1 opened separated_bracket (by cases d <;> rfl)

theorem quoteText (text : String) : law.Holds aggregates (d.dialect.quoteText text) :=
  .of_lexemes (lexemes?_quoteText text) (by simp [Lexeme.isFixed]) rfl

end Law.Holds

/-! ## Operators -/

theorem holds_compare (left : law.Holds aggregates l) (op : Comparison)
    (right : law.Holds aggregates r) :
    law.Holds aggregates (d.dialect.compare l op r) := by
  have operator : d.opened? false 0 (" " ++ op.sql ++ " ") = some 0 := by
    cases d <;> cases op <;> rfl
  cases d <;> exact left.spaced right operator

theorem holds_binary {law : mysql.Law} (holds : law.Holds aggregates sql) :
    law.Holds aggregates ("CAST(" ++ sql ++ " AS BINARY)") :=
  holds.enclosed 1 rfl (separated_of_head rfl rfl) rfl

theorem holds_compareText (left : law.Holds aggregates l) (op : Comparison)
    (right : law.Holds aggregates r) :
    law.Holds aggregates (d.dialect.compareText l op r) := by
  cases d with
  | mysql =>
      refine (holds_binary left).spaced (holds_binary right) ?_
      cases op <;> rfl
  | ansi | postgres | sqlite => exact holds_compare left op right

theorem holds_concat (left : law.Holds aggregates l)
    (right : law.Holds aggregates r) :
    law.Holds aggregates (d.dialect.concat l r) := by
  cases d with
  | mysql => exact .call rfl (by simp [left, right])
  | ansi | postgres | sqlite => exact (left.spaced right rfl).bracketed

theorem holds_arithmetic (left : law.Holds aggregates l) (op : Arithmetic)
    (right : law.Holds aggregates r) :
    law.Holds aggregates (d.dialect.arithmetic l op r) := by
  have operator : d.opened? false 0 (" " ++ op.symbol ++ " ") = some 0 := by
    cases d <;> cases op <;> rfl
  cases d <;> exact (left.spaced right operator).bracketed

theorem holds_trueDivide (left : law.Holds aggregates l)
    (right : law.Holds aggregates r) :
    law.Holds aggregates (d.dialect.trueDivide l r) := by
  have separated : Separated " AS DOUBLE PRECISION)" := separated_of_head rfl rfl
  cases d with
  | mysql => exact (left.spaced right rfl).bracketed
  | sqlite =>
      have real : law.Holds aggregates ("CAST(" ++ l ++ " AS REAL)") :=
        left.enclosed 1 rfl (separated_of_head rfl rfl) rfl
      exact (real.spaced right rfl).bracketed
  | ansi | postgres =>
      exact ((left.enclosed 1 rfl separated rfl).spaced right rfl).bracketed

theorem holds_floorModulo (left : law.Holds aggregates l)
    (right : law.Holds aggregates r) :
    law.Holds aggregates (d.dialect.floorModulo l r) := by
  cases d <;>
    exact ((((left.spaced right rfl).bracketed.spaced right rfl).bracketed).spaced right
      rfl).bracketed

/-! ## Dates, times and intervals -/

theorem holds_addMicroseconds {law : mysql.Law} {sign seconds moment : String}
    (known : sign = "" ∨ sign = "-") (amount : law.Holds aggregates seconds)
    (since : law.Holds aggregates moment) :
    law.Holds aggregates (Dialect.addMicroseconds sign seconds moment) := by
  have rounded : law.Holds aggregates (sign ++ "ROUND(" ++ seconds ++ " * 1000000)") := by
    rcases known with rfl | rfl <;>
      exact amount.enclosed 1 rfl (separated_of_head rfl rfl) rfl
  have unit : law.Holds aggregates "MICROSECOND" := .of_closes rfl
  exact .call rfl (by simp [unit, rounded, since])

theorem holds_mysqlDates {law : mysql.Law} {l r : Kind × String} {op : Arithmetic}
    {text : String} (left : law.Holds aggregates l.2) (right : law.Holds aggregates r.2)
    (written : Dialect.mysqlDates l op r = some text) : law.Holds aggregates text := by
  unfold Dialect.mysqlDates at written
  split at written <;> cases written
  · exact holds_addMicroseconds (.inl rfl) right left
  · exact holds_addMicroseconds (.inr rfl) right left
  · exact holds_addMicroseconds (.inl rfl) left right
  · exact .call rfl (by simpa using holds_addMicroseconds (.inl rfl) right left)
  · exact .call rfl (by simpa using holds_addMicroseconds (.inr rfl) right left)
  · exact .call rfl (by simpa using holds_addMicroseconds (.inl rfl) left right)
  · have unit : law.Holds aggregates "MICROSECOND" := .of_closes rfl
    have difference : law.Holds aggregates
        (callText "TIMESTAMPDIFF" ["MICROSECOND", r.2, l.2]) :=
      .call rfl (by simp [unit, left, right])
    exact difference.enclosed 1 rfl (separated_of_head rfl rfl) rfl
  · have difference : law.Holds aggregates (callText "DATEDIFF" [l.2, r.2]) :=
      .call rfl (by simp [left, right])
    exact difference.enclosed 1 rfl (separated_of_head rfl rfl) rfl

theorem holds_secondsModifier {law : sqlite.Law} {sign seconds : String}
    (known : sign = "" ∨ sign = "-") (amount : law.Holds aggregates seconds) :
    law.Holds aggregates (Dialect.secondsModifier sign seconds) := by
  unfold Dialect.secondsModifier
  rcases known with rfl | rfl
  all_goals exact amount.enclosed 1 rfl separated_bracket rfl

theorem holds_sqliteDates {law : sqlite.Law} {l r : Kind × String} {op : Arithmetic}
    {text : String} (left : law.Holds aggregates l.2) (right : law.Holds aggregates r.2)
    (written : Dialect.sqliteDates l op r = some text) : law.Holds aggregates text := by
  unfold Dialect.sqliteDates at written
  split at written <;> cases written
  · exact .call rfl (by simp [left, holds_secondsModifier (.inl rfl) right])
  · exact .call rfl (by simp [left, holds_secondsModifier (.inr rfl) right])
  · exact .call rfl (by simp [right, holds_secondsModifier (.inl rfl) left])
  · exact left.framed right 4 4 rfl (separated_of_head rfl rfl) (by decide)
      rfl (separated_of_head rfl rfl) rfl

theorem holds_postgresDates {law : postgres.Law} {l r : Kind × String} {op : Arithmetic}
    {text : String} (left : law.Holds aggregates l.2) (right : law.Holds aggregates r.2)
    (written : Dialect.postgresDates l op r = some text) :
    law.Holds aggregates text := by
  have plain : law.Holds aggregates
      (Text.bracketed (spaced [l.2, op.symbol, r.2])) :=
    holds_arithmetic left op right
  unfold Dialect.postgresDates at written
  dsimp only at written
  split at written <;> cases written
  all_goals first | exact plain | skip
  · exact plain.enclosed 1 rfl (separated_of_head rfl rfl) rfl
  · exact plain.enclosed 1 rfl (separated_of_head rfl rfl) rfl
  · exact plain.enclosed 1 rfl (separated_of_head rfl rfl) rfl
  · exact left.framed right 2 2 rfl (separated_of_head rfl rfl) (by decide)
      rfl (separated_of_head rfl rfl) rfl
  · exact left.framed right 2 2 rfl (separated_of_head rfl rfl) (by decide)
      rfl (separated_of_head rfl rfl) rfl

theorem holds_dateArithmetic {l r : Kind × String} {op : Arithmetic} {text : String}
    (written : d.dialect.dateArithmetic l op r = some text) (left : law.Holds aggregates l.2)
    (right : law.Holds aggregates r.2) : law.Holds aggregates text := by
  cases d with
  | ansi => cases written
  | postgres => exact holds_postgresDates left right written
  | sqlite => exact holds_sqliteDates left right written
  | mysql => exact holds_mysqlDates left right written

theorem holds_now : law.Holds aggregates d.dialect.now := by
  cases d <;> exact .of_closes rfl

theorem holds_today : law.Holds aggregates d.dialect.today := by
  cases d <;> exact .of_closes rfl

theorem holds_extract (part : DatePart) (holds : law.Holds aggregates sql) :
    law.Holds aggregates (d.dialect.extract part sql) := by
  have opened : d.opened? false 0 ("EXTRACT(" ++ part.keyword ++ " FROM ") = some 1 := by
    cases d <;> cases part <;> rfl
  have closes : d.closes 1 ")" = true := by cases d <;> rfl
  have field := holds.enclosed 1 opened separated_bracket closes
  have floored : law.Holds aggregates
      (if part = .second then callText "FLOOR" ["EXTRACT(" ++ part.keyword ++ " FROM " ++ sql ++ ")"]
        else "EXTRACT(" ++ part.keyword ++ " FROM " ++ sql ++ ")") := by
    split
    · exact .call (by cases d <;> rfl) (by simpa using field)
    · exact field
  cases d with
  | ansi | mysql => exact floored
  | postgres => exact floored.enclosed 1 rfl (separated_of_head rfl rfl) rfl
  | sqlite =>
      have format : law.Holds aggregates ("'" ++ Dialect.sqliteField part ++ "'") :=
        .of_closes (by cases part <;> rfl)
      have formatted : law.Holds aggregates
          (callText "strftime" ["'" ++ Dialect.sqliteField part ++ "'", sql]) :=
        .call rfl (by simp [format, holds])
      exact formatted.enclosed 1 rfl (separated_of_head rfl rfl) rfl

/-! ## Texts -/

theorem holds_lower (holds : law.Holds aggregates sql) :
    law.Holds aggregates (d.dialect.lower sql) := by
  cases d <;> exact .call rfl (by simpa using holds)

theorem holds_upper (holds : law.Holds aggregates sql) :
    law.Holds aggregates (d.dialect.upper sql) := by
  cases d <;> exact .call rfl (by simpa using holds)

theorem holds_length (holds : law.Holds aggregates sql) :
    law.Holds aggregates (d.dialect.length sql) := by
  cases d <;> exact .call rfl (by simpa using holds)

theorem holds_escapePattern (holds : law.Holds aggregates sql) :
    law.Holds aggregates (d.dialect.escapePattern sql) := by
  have replace {text : String} (inside : law.Holds aggregates text) (old : String) :
      law.Holds aggregates (callText "REPLACE"
        [text, d.dialect.quoteText old, d.dialect.quoteText (escapeText ++ old)]) :=
    .call (by cases d <;> rfl) (by simp [inside, Law.Holds.quoteText])
  cases d <;> exact replace (replace (replace holds escapeText) "%") "_"

theorem holds_like (left : law.Holds aggregates l) (right : law.Holds aggregates r)
    (ignoreCase : Bool) : law.Holds aggregates (d.dialect.like l r ignoreCase).1 := by
  have lowered {text : String} (inside : law.Holds aggregates text) :
      law.Holds aggregates ("LOWER(" ++ text ++ ")") :=
    inside.enclosed 1 (by cases d <;> rfl) separated_bracket (by cases d <;> rfl)
  have escape : law.Holds aggregates (d.dialect.quoteText escapeText) := .quoteText _
  -- A test of five parts is one of three parts the last of which are three parts again.
  have tested {word l r : String} (left : law.Holds aggregates l)
      (right : law.Holds aggregates r)
      (opened : d.opened? false 0 (" " ++ word ++ " ") = some 0) :
      law.Holds aggregates
        (spaced [l, word, r, "ESCAPE", d.dialect.quoteText escapeText]) :=
    left.spaced (right.spaced escape (by cases d <;> rfl)) opened
  cases d with
  | ansi =>
      cases ignoreCase with
      | true => exact tested (lowered left) (lowered right) rfl
      | false => exact tested left right rfl
  | postgres => cases ignoreCase <;> exact tested left right rfl
  | sqlite => exact tested left right rfl
  | mysql =>
      cases ignoreCase with
      | true => exact tested (lowered left) (lowered right) rfl
      | false => exact tested (holds_binary left) right rfl

end BuiltinDialect

end RowQuery
