import RowQuery.Proofs.Sql.Lexing
import RowQuery.Proofs.Sql.Quotation

/-!
# Text expressions

The values of SQL expressions that put texts together: literals, calls of REPLACE and
concatenations in the spelling of each database, over operands of any other kind.  The
reader goes through the characters of the expression; it returns the value and what is
left behind the expression.
-/

namespace RowQuery

open Sql

namespace Sql

/-- A reader of expressions: the value and what is left. -/
abbrev Reader := List Char → Option (List Char × List Char)

/-- Replace the occurrences of a text from left to right.  The first `skipped` characters
belong to an occurrence that has been replaced; nothing is replaced for an empty text. -/
def replaceAll (old new : List Char) : Nat → List Char → List Char
  | _, [] => []
  | skipped + 1, _ :: text => replaceAll old new skipped text
  | 0, c :: text =>
      if old ≠ [] ∧ old.isPrefixOf (c :: text) then
        new ++ replaceAll old new (old.length - 1) text
      else c :: replaceAll old new 0 text

theorem replaceAll_singleton (c : Char) (new text : List Char) :
    replaceAll [c] new 0 text = Text.replaceChar c new text := by
  induction text with
  | nil => rfl
  | cons t text ih =>
      rw [Text.replaceChar, List.flatMap_cons, ← Text.replaceChar, ← ih, replaceAll]
      by_cases same : t = c
      · simp [same]
      · simp [same, Ne.symm same]

/-- What is left behind a word that has to come next. -/
def expect (word : String) (text : List Char) : Option (List Char) :=
  Text.dropFront? word.toList text

theorem expect_append (word : String) (rest : List Char) :
    expect word (word.toList ++ rest) = some rest := by
  rw [expect]
  induction word.toList with
  | nil => rfl
  | cons c word ih => simpa [Text.dropFront?] using ih

/-- Read the operands of REPLACE and its closing bracket. -/
def evalReplace (inner : Reader) (text : List Char) : Option (List Char × List Char) := do
  let (whole, text) ← inner text
  let (old, text) ← inner (← expect ", " text)
  let (new, text) ← inner (← expect ", " text)
  let text ← expect ")" text
  return (replaceAll old new 0 whole, text)

/-- Read the operands of a concatenation, what stands between them and what ends it. -/
def evalConcat (between ending : String) (inner : Reader) (text : List Char) :
    Option (List Char × List Char) := do
  let (left, text) ← inner text
  let (right, text) ← inner (← expect between text)
  let text ← expect ending text
  return (left ++ right, text)

/-- One reader reads all that another one does. -/
def Extends (more less : Reader) : Prop :=
  ∀ text found, less text = some found → more text = some found

section Extends

variable {more less : Reader} (extends_ : Extends more less)

include extends_

theorem Extends.evalReplace : Extends (evalReplace more) (evalReplace less) := by
  intro text found read
  simp only [Sql.evalReplace, Option.bind_eq_bind, Option.bind_eq_some_iff] at read ⊢
  obtain ⟨whole, first, rest, comma, old, second, rest', comma', new, third, ended⟩ := read
  exact ⟨whole, extends_ _ _ first, rest, comma, old, extends_ _ _ second, rest', comma', new,
    extends_ _ _ third, ended⟩

theorem Extends.evalConcat (between ending : String) :
    Extends (evalConcat between ending more) (evalConcat between ending less) := by
  intro text found read
  simp only [Sql.evalConcat, Option.bind_eq_bind, Option.bind_eq_some_iff] at read ⊢
  obtain ⟨left, first, rest, middle, right, second, ended⟩ := read
  exact ⟨left, extends_ _ _ first, rest, middle, right, extends_ _ _ second, ended⟩

end Extends

end Sql

namespace BuiltinDialect

/-- What stands before, between and behind the operands of a concatenation. -/
def concatMarks : BuiltinDialect → String × String × String
  | mysql => ("CONCAT(", ", ", ")")
  | ansi | postgres | sqlite => ("(", " || ", ")")

variable (d : BuiltinDialect) (operand : Reader)

/-- Read the value of a text expression that is not nested too deeply. -/
def evalText : Nat → Reader
  | 0, _ => none
  | depth + 1, text =>
      match expect "REPLACE(" text, expect d.concatMarks.1 text with
      | some inside, _ => evalReplace (evalText depth) inside
      | none, some inside => evalConcat d.concatMarks.2.1 d.concatMarks.2.2 (evalText depth) inside
      | none, none => (d.textQuotation.read text).orElse fun _ => operand text

theorem evalText_succ (depth : Nat) :
    Extends (d.evalText operand (depth + 1)) (d.evalText operand depth) := by
  induction depth with
  | zero => exact fun _ _ impossible => by cases impossible
  | succ depth ih =>
      intro text found read
      rw [evalText] at read ⊢
      split at read
      · exact ih.evalReplace _ _ read
      · exact ih.evalConcat _ _ _ _ read
      · exact read

theorem evalText_mono {less more : Nat} (le : less ≤ more) :
    Extends (d.evalText operand more) (d.evalText operand less) := by
  induction le with
  | refl => exact fun _ _ read => read
  | step _ ih => exact fun text found read => d.evalText_succ operand _ _ _ (ih text found read)

/-- A text is an expression of a value, whatever follows it behind a separator. -/
def Evaluates (sql : String) (value : List Char) : Prop :=
  ∀ rest, Lexer.Separated rest →
    ∃ depth, d.evalText operand depth (sql.toList ++ rest) = some (value, rest)

namespace Evaluates

variable {d operand} {sql : String} {value : List Char}

/-- An expression has one value. -/
theorem unique {value' : List Char} (first : d.Evaluates operand sql value)
    (second : d.Evaluates operand sql value') : value = value' := by
  obtain ⟨depth, read⟩ := first [] (by simp [Lexer.Separated])
  obtain ⟨depth', read'⟩ := second [] (by simp [Lexer.Separated])
  have same := d.evalText_mono operand (Nat.le_max_left depth depth') _ _ read
  rw [d.evalText_mono operand (Nat.le_max_right depth depth') _ _ read'] at same
  exact (Prod.mk.inj (Option.some.inj same)).1.symm

theorem separated_comma (rest : List Char) : Lexer.Separated (", ".toList ++ rest) := by
  simp [Lexer.Separated]

theorem separated_closing (rest : List Char) : Lexer.Separated (")".toList ++ rest) := by
  simp [Lexer.Separated]

/-- Nothing but a literal begins with a mark. -/
theorem literal (text : String) : d.Evaluates operand (d.dialect.quoteText text) text.toList := by
  intro rest separated
  have unmarked : rest.head? ≠ some d.textQuotation.mark := by
    rw [mark_eq]
    intro first
    rcases separated _ first with same | same | same <;> cases same
  have read := (d.quoteText_encloses text).read_eq unmarked
  have begins : ∃ more, (d.dialect.quoteText text).toList ++ rest = '\'' :: more := by
    rw [d.quoteText_encloses text, mark_eq]
    exact ⟨_, rfl⟩
  obtain ⟨more, begins⟩ := begins
  have noReplace : expect "REPLACE(" ('\'' :: more) = none := rfl
  have noConcat : expect d.concatMarks.1 ('\'' :: more) = none := by cases d <;> rfl
  refine ⟨1, ?_⟩
  rw [begins] at read ⊢
  rw [evalText, noReplace, noConcat, read]
  rfl

/-- The value of REPLACE. -/
theorem replace {whole old new : String} {w o n : List Char}
    (first : d.Evaluates operand whole w) (second : d.Evaluates operand old o)
    (third : d.Evaluates operand new n) :
    d.Evaluates operand (callText "REPLACE" [whole, old, new]) (replaceAll o n 0 w) := by
  intro rest separated
  obtain ⟨a, first⟩ := first _ (separated_comma
    (old.toList ++ (", ".toList ++ (new.toList ++ (")".toList ++ rest)))))
  obtain ⟨b, second⟩ := second _ (separated_comma (new.toList ++ (")".toList ++ rest)))
  obtain ⟨c, third⟩ := third _ (separated_closing rest)
  have mono (depth : Nat) (le : depth ≤ max a (max b c)) :
      Extends (d.evalText operand (max a (max b c))) (d.evalText operand depth) :=
    d.evalText_mono operand le
  have written : (callText "REPLACE" [whole, old, new]).toList ++ rest =
      "REPLACE(".toList ++ (whole.toList ++ (", ".toList ++ (old.toList ++ (", ".toList ++
        (new.toList ++ (")".toList ++ rest)))))) := by
    simp [callText, Text.join]
  refine ⟨max a (max b c) + 1, ?_⟩
  rw [written, evalText, expect_append]
  simp only [evalReplace, Option.bind_eq_bind]
  rw [mono a (by omega) _ _ first]
  simp only [Option.bind_some, expect_append]
  rw [mono b (by omega) _ _ second]
  simp only [Option.bind_some, expect_append]
  rw [mono c (by omega) _ _ third]
  simp only [Option.bind_some, expect_append]
  rfl

/-- The value of a concatenation. -/
theorem concat {left right : String} {l r : List Char} (first : d.Evaluates operand left l)
    (second : d.Evaluates operand right r) :
    d.Evaluates operand (d.dialect.concat left right) (l ++ r) := by
  intro rest separated
  have written : (d.dialect.concat left right).toList ++ rest =
      d.concatMarks.1.toList ++ (left.toList ++ (d.concatMarks.2.1.toList ++ (right.toList ++
        (d.concatMarks.2.2.toList ++ rest)))) := by
    cases d <;> simp [dialect, Dialect.ansi, Dialect.postgres, Dialect.sqlite, Dialect.mysql,
      concatMarks, callText, Text.join, Text.bracketed, spaced]
  have noReplace (text : List Char) :
      expect "REPLACE(" (d.concatMarks.1.toList ++ text) = none := by
    cases d <;> rfl
  have middle (text : List Char) : Lexer.Separated (d.concatMarks.2.1.toList ++ text) := by
    cases d <;> simp [Lexer.Separated, concatMarks]
  have ending (text : List Char) : Lexer.Separated (d.concatMarks.2.2.toList ++ text) := by
    cases d <;> simp [Lexer.Separated, concatMarks]
  obtain ⟨a, first⟩ := first _ (middle (right.toList ++ (d.concatMarks.2.2.toList ++ rest)))
  obtain ⟨b, second⟩ := second _ (ending rest)
  refine ⟨max a b + 1, ?_⟩
  rw [written, evalText, noReplace, expect_append]
  simp only [evalConcat, Option.bind_eq_bind]
  rw [d.evalText_mono operand (Nat.le_max_left a b) _ _ first]
  simp only [Option.bind_some, expect_append]
  rw [d.evalText_mono operand (Nat.le_max_right a b) _ _ second]
  simp only [Option.bind_some, expect_append]
  rfl

end Evaluates

/-- Read a column of a row of texts. -/
def columnReader (row : List Char → Option (List Char)) : Reader := fun text => do
  let (name, text) ← d.nameQuotation.read text
  let value ← row name
  return (value, text)

theorem Evaluates.column {row : List Char → Option (List Char)} {name : String}
    {value : List Char} (present : row name.toList = some value) :
    d.Evaluates (d.columnReader row) (d.dialect.quoteName name) value := by
  intro rest separated
  have unmarked : rest.head? ≠ some d.nameQuotation.mark := by
    intro first
    rcases separated _ first with same | same | same <;> cases d <;> cases same
  have read := (d.quoteName_encloses name).read_eq unmarked
  have begins : ∃ more, (d.dialect.quoteName name).toList ++ rest =
      d.nameQuotation.mark :: more := by
    rw [d.quoteName_encloses name]
    exact ⟨_, rfl⟩
  obtain ⟨more, begins⟩ := begins
  have other : expect "REPLACE(" (d.nameQuotation.mark :: more) = none ∧
      expect d.concatMarks.1 (d.nameQuotation.mark :: more) = none ∧
      d.textQuotation.read (d.nameQuotation.mark :: more) = none := by
    cases d <;> exact ⟨rfl, rfl, rfl⟩
  refine ⟨1, ?_⟩
  rw [begins] at read ⊢
  rw [evalText, other.1, other.2.1, other.2.2]
  simp [columnReader, read, present]

end BuiltinDialect

end RowQuery
