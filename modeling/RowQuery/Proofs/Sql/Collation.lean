import Mathlib.Data.List.Forall2
import RowQuery.Proofs.Sql.Lexeme

/-!
# Tests of texts under a collation

MySQL compares texts by a collation, which takes some texts for the same although they differ, such
as in the case of letters.  It compares bytes where one side is cast to `BINARY`.  The evaluator
reads comparisons, membership tests, and disjunctions or conjunctions of them between round
brackets; a row gives the texts of columns.
-/

namespace RowQuery

open Sql

namespace Sql

/-- The text of a literal or of a column. -/
def Lexeme.text? (row : List String → Option String) : Lexeme → Option String
  | .text content => some content
  | .name path => row path
  | .word _ | .symbol _ => none

/-- A text to compare, and whether it is cast to bytes. -/
structure Compared where
  text : String
  bytes : Bool

section Collated

variable (same : String → String → Bool) (row : List String → Option String)

/-- Two texts are taken for the same. -/
def Compared.alike (a b : Compared) : Bool :=
  if a.bytes || b.bytes then a.text == b.text else same a.text b.text

/-- Read a side of a comparison. -/
def readCompared : List Lexeme → Option (Compared × List Lexeme)
  | .word cast :: .symbol '(' :: operand :: .word as :: .word type :: .symbol ')' :: rest =>
      if cast = "CAST" ∧ as = "AS" ∧ type = "BINARY" then
        (operand.text? row).map fun text => (⟨text, true⟩, rest)
      else none
  | operand :: rest => (operand.text? row).map fun text => (⟨text, false⟩, rest)
  | [] => none

/-- The members of a list up to its closing bracket, which has to be the last lexeme. -/
def readMembers : List Lexeme → Option (List Compared)
  | [operand, .symbol ')'] => (operand.text? row).map fun text => [⟨text, false⟩]
  | operand :: .symbol ',' :: rest => do
      let text ← operand.text? row
      let others ← readMembers rest
      return ⟨text, false⟩ :: others
  | _ => none

/-- The answer of a test whose left side has been read. -/
def answerBehind (left : Compared) : List Lexeme → Option Bool
  | .symbol '=' :: rest =>
      match readCompared row rest with
      | some (right, []) => some (left.alike same right)
      | _ => none
  | .symbol '<' :: .symbol '>' :: rest =>
      match readCompared row rest with
      | some (right, []) => some !(left.alike same right)
      | _ => none
  | .word "IN" :: .symbol '(' :: rest => (readMembers row rest).map (List.any · (left.alike same))
  | .word "NOT" :: .word "IN" :: .symbol '(' :: rest =>
      (readMembers row rest).map fun members => !members.any (left.alike same)
  | _ => none

def answer (lexemes : List Lexeme) : Option Bool :=
  (readCompared row lexemes).bind fun (left, rest) => answerBehind same row left rest

/-- The answer of a test, or of several tests between brackets. -/
def answerAll : List Lexeme → Option Bool
  | .symbol '(' :: inside =>
      if .word "OR" ∈ inside then
        ((inside.dropLast.splitOn (.word "OR")).mapM (answer same row)).map (List.any · id)
      else ((inside.dropLast.splitOn (.word "AND")).mapM (answer same row)).map (List.all · id)
  | lexemes => answer same row lexemes

end Collated

/-! ## The lexemes of tests -/

/-- The sign of a comparison for equal or for different texts. -/
def signLexemes (negated : Bool) : List Lexeme :=
  if negated then [.symbol '<', .symbol '>'] else [.symbol '=']

def castLexemes (operand : Lexeme) : List Lexeme :=
  [.word "CAST", .symbol '(', operand, .word "AS", .word "BINARY", .symbol ')']

/-- The comparison of a column with a literal as bytes. -/
def bytesTest (path : List String) (negated : Bool) (text : String) : List Lexeme :=
  castLexemes (.name path) ++ signLexemes negated ++ castLexemes (.text text)

/-- Literals up to the closing bracket. -/
def memberLexemes : List String → List Lexeme
  | [] => [.symbol ')']
  | [text] => [.text text, .symbol ')']
  | text :: texts => .text text :: .symbol ',' :: memberLexemes texts

/-- The test whether a column is among some literals. -/
def amongTest (path : List String) (negated : Bool) (texts : List String) : List Lexeme :=
  .name path :: ((if negated then [.word "NOT"] else []) ++
    .word "IN" :: .symbol '(' :: memberLexemes texts)

/-- Several tests with a keyword between them. -/
def chainTest (negated : Bool) (tests : List (List Lexeme)) : List Lexeme :=
  [Lexeme.word (if negated then "AND" else "OR")].intercalate tests

section Answers

variable {same : String → String → Bool} {row : List String → Option String}
variable {path : List String} {stored : String} {texts : List String}

theorem answer_bytesTest (cell : row path = some stored) (negated : Bool) (text : String) :
    answer same row (bytesTest path negated text) = some ((stored == text) != negated) := by
  cases negated <;>
    simp [answer, bytesTest, castLexemes, signLexemes, readCompared, Lexeme.text?, cell,
      answerBehind, Compared.alike]

theorem readMembers_memberLexemes (present : texts ≠ []) :
    readMembers row (memberLexemes texts) = some (texts.map fun text => ⟨text, false⟩) := by
  induction texts with
  | nil => exact absurd rfl present
  | cons text texts ih =>
      cases texts with
      | nil => rfl
      | cons next texts => simp [memberLexemes, readMembers, Lexeme.text?, ih (by simp)]

theorem answer_amongTest (cell : row path = some stored) (negated : Bool) (present : texts ≠ []) :
    answer same row (amongTest path negated texts) =
      some (texts.any (same stored) != negated) := by
  have members : readMembers row (memberLexemes texts) = _ := readMembers_memberLexemes present
  cases negated <;>
    simp [answer, amongTest, readCompared, Lexeme.text?, cell, answerBehind, members,
      Compared.alike, List.any_map, Function.comp_def]

theorem mem_chainTest {negated : Bool} {tests : List (List Lexeme)} {lexeme : Lexeme}
    (member : lexeme ∈ chainTest negated tests) :
    lexeme = .word (if negated then "AND" else "OR") ∨ ∃ test ∈ tests, lexeme ∈ test := by
  unfold chainTest at member
  induction tests with
  | nil => cases member
  | cons test tests ih =>
      cases tests with
      | nil =>
          rw [List.intercalate_singleton] at member
          exact .inr ⟨test, by simp, member⟩
      | cons next tests =>
          simp only [List.intercalate_cons_cons, List.mem_append, List.mem_singleton] at member
          rcases member with (own | keyword) | later
          · exact .inr ⟨test, by simp, own⟩
          · exact .inl keyword
          · rcases ih later with keyword | ⟨other, among, found⟩
            · exact .inl keyword
            · exact .inr ⟨other, List.mem_cons_of_mem _ among, found⟩

/-- The keywords between tests do not occur in them. -/
theorem keyword_not_mem_bytesTest {keyword : String} (isKeyword : keyword = "OR" ∨ keyword = "AND")
    (negated : Bool) (text : String) : Lexeme.word keyword ∉ bytesTest path negated text := by
  rcases isKeyword with rfl | rfl <;> cases negated <;>
    simp [bytesTest, castLexemes, signLexemes]

theorem any_beq (texts : List String) (stored : String) :
    (texts.map fun text => (stored == text) != false).any id =
      (texts.contains stored != false) := by
  rw [Bool.eq_iff_iff]
  simp

theorem all_bne (texts : List String) (stored : String) :
    (texts.map fun text => (stored == text) != true).all id = (texts.contains stored != true) := by
  induction texts with
  | nil => rfl
  | cons text texts ih =>
      rw [List.map_cons, List.all_cons, ih, List.contains_cons]
      cases stored == text <;> simp

/-- The answers of several tests are put together. -/
theorem answerAll_chainTest (cell : row path = some stored) (negated : Bool)
    (several : 2 ≤ texts.length) :
    answerAll same row (.symbol '(' ::
        (chainTest negated (texts.map (bytesTest path negated)) ++ [.symbol ')'])) =
      some (texts.contains stored != negated) := by
  have answers : (texts.map (bytesTest path negated)).mapM (answer same row) =
      some (texts.map fun text => (stored == text) != negated) := by
    rw [List.mapM_map]
    exact (congrArg (List.mapM · texts) (funext (answer_bytesTest cell negated))).trans
      List.mapM_pure
  have apart (keyword : String) (isKeyword : keyword = "OR" ∨ keyword = "AND") :
      ∀ test ∈ texts.map (bytesTest path negated), Lexeme.word keyword ∉ test := by
    simp only [List.forall_mem_map]
    exact fun text _ => keyword_not_mem_bytesTest isKeyword negated text
  have nonempty : texts.map (bytesTest path negated) ≠ [] := by
    rintro empty
    simp [List.map_eq_nil_iff.1 empty] at several
  cases negated with
  | true =>
      have noOr : Lexeme.word "OR" ∉
          chainTest true (texts.map (bytesTest path true)) ++ [.symbol ')'] := by
        simp only [List.mem_append, List.mem_singleton, reduceCtorEq, or_false]
        intro member
        rcases mem_chainTest member with keyword | ⟨test, among, found⟩
        · simp at keyword
        · exact apart "OR" (.inl rfl) test among found
      rw [answerAll, if_neg noOr, List.dropLast_concat, chainTest, if_pos rfl,
        List.splitOn_intercalate _ (apart "AND" (.inr rfl)) nonempty, answers, Option.map_some,
        all_bne]
  | false =>
      have keyword : Lexeme.word "OR" ∈
          chainTest false (texts.map (bytesTest path false)) ++ [.symbol ')'] := by
        match texts, several with
        | first :: second :: others, _ => simp [chainTest, List.intercalate_cons_cons]
      rw [answerAll, if_pos keyword, List.dropLast_concat, chainTest, if_neg Bool.false_ne_true,
        List.splitOn_intercalate _ (apart "OR" (.inl rfl)) nonempty, answers, Option.map_some,
        any_beq]

end Answers

end Sql

open Scanner

namespace BuiltinDialect

variable {sql column : String} {path texts : List String} {tests : List (List Lexeme)}

theorem lexemes?_members (present : texts ≠ []) :
    mysql.lexemes? (Text.join ", " (texts.map mysql.dialect.quoteText) ++ ")") =
      some (memberLexemes texts) := by
  induction texts with
  | nil => exact absurd rfl present
  | cons text texts ih =>
      have front := lexemes?_quoteText (d := mysql) text
      cases texts with
      | nil => exact lexemes?_append_of_separated front separated_bracket rfl
      | cons next texts =>
          have comma : idle.run mysql ", ".toList = some ([.symbol ','], idle) := rfl
          have whole := lexemes?_beside front (separated_of_head rfl rfl) (by decide) comma
            (ih (by simp))
          have written :
              Text.join ", " ((text :: next :: texts).map mysql.dialect.quoteText) ++ ")" =
                mysql.dialect.quoteText text ++ (", " ++
                  (Text.join ", " ((next :: texts).map mysql.dialect.quoteText) ++ ")")) := by
            simp only [List.map_cons, Text.join, String.append_assoc]
          rw [written]
          exact whole

/-- The membership test of a column. -/
theorem lexemes?_among (named : mysql.lexemes? column = some [.name path]) (negated : Bool)
    (present : texts ≠ []) :
    mysql.lexemes? (column ++ (if negated then " NOT IN " else " IN ") ++
        Text.bracketed (Text.join ", " (texts.map mysql.dialect.quoteText))) =
      some (amongTest path negated texts) := by
  have members := lexemes?_members present
  have opens : idle.run mysql ((if negated then " NOT IN " else " IN ") ++ "(").toList =
      some ((if negated then [.word "NOT"] else []) ++ [.word "IN", .symbol '('], idle) := by
    cases negated <;> rfl
  have separated : Separated ((if negated then " NOT IN " else " IN ") ++ "(") := by
    cases negated <;> exact separated_of_head rfl rfl
  have whole := lexemes?_beside named separated (by cases negated <;> decide) opens members
  simpa only [Text.bracketed, String.append_assoc, amongTest, List.append_assoc, List.cons_append,
    List.nil_append] using whole

/-- The operator for equal or for different texts. -/
def equality (negated : Bool) : Comparison :=
  if negated then .ne else .eq

/-- The comparison of a column with a literal. -/
theorem lexemes?_compareText (named : mysql.lexemes? column = some [.name path]) (negated : Bool)
    (text : String) :
    mysql.lexemes? (mysql.dialect.compareText column (equality negated)
        (mysql.dialect.quoteText text)) = some (bytesTest path negated text) := by
  have opens : idle.run mysql "CAST(".toList = some ([.word "CAST", .symbol '('], idle) := rfl
  have sign : idle.run mysql
      (" AS BINARY)" ++ (" " ++ ((equality negated).sql ++ (" " ++ "CAST(")))).toList =
        some ([.word "AS", .word "BINARY", .symbol ')'] ++ signLexemes negated ++
          [.word "CAST", .symbol '('], idle) := by
    cases negated <;> rfl
  have separated :
      Separated (" AS BINARY)" ++ (" " ++ ((equality negated).sql ++ (" " ++ "CAST(")))) :=
    separated_append (separated_of_head rfl rfl) (by decide)
  have present : " AS BINARY)" ++ (" " ++ ((equality negated).sql ++ (" " ++ "CAST("))) ≠ "" := by
    simp
  have closes : mysql.lexemes? " AS BINARY)" = some [.word "AS", .word "BINARY", .symbol ')'] := rfl
  have right := lexemes?_append_of_separated (lexemes?_quoteText (d := mysql) text)
    (separated_of_head rfl rfl) closes
  have whole := lexemes?_append_of_idle opens (lexemes?_beside named separated present sign right)
  have written : mysql.dialect.compareText column (equality negated)
      (mysql.dialect.quoteText text) = "CAST(" ++ (column ++
        ((" AS BINARY)" ++ (" " ++ ((equality negated).sql ++ (" " ++ "CAST(")))) ++
          (mysql.dialect.quoteText text ++ " AS BINARY)"))) := by
    simp only [dialect, Dialect.mysql, spaced, Text.join, String.append_assoc]
  rw [written, whole]
  simp [bytesTest, castLexemes]

/-- One test, or several between brackets. -/
def chainText (negated : Bool) (tests : List String) : String :=
  match tests with
  | [text] => text
  | _ => Text.bracketed (Text.join (if negated then " AND " else " OR ") tests)

/-- Several tests with a keyword between them. -/
theorem lexemes?_chain (negated : Bool) {texts : List String}
    (each : List.Forall₂ (fun text test => mysql.lexemes? text = some test) texts tests)
    (present : texts ≠ []) :
    mysql.lexemes? (Text.join (if negated then " AND " else " OR ") texts) =
      some (chainTest negated tests) := by
  induction each with
  | nil => exact absurd rfl present
  | @cons text test texts tests found each ih =>
      cases each with
      | nil =>
          rw [chainTest, List.intercalate_singleton]
          exact found
      | cons next rest =>
          have keyword : idle.run mysql (if negated then " AND " else " OR ").toList =
              some ([.word (if negated then "AND" else "OR")], idle) := by
            cases negated <;> rfl
          have separated : Separated (if negated then " AND " else " OR ") := by
            cases negated <;> exact separated_of_head rfl rfl
          have whole := lexemes?_beside found separated (by cases negated <;> decide) keyword
            (ih (by simp))
          rw [Text.join, String.append_assoc, whole, chainTest, chainTest,
            List.intercalate_cons_cons, List.append_assoc]
          simp

section Answers

variable (same : String → String → Bool) {row : List String → Option String} {stored : String}

/-- The answer that a text gives on a row where texts compare by a collation. -/
def collated (row : List String → Option String) (sql : String) : Option Bool :=
  (mysql.lexemes? sql).bind (answerAll same row)

/-- A membership test goes by the collation. -/
theorem collated_among (named : mysql.lexemes? column = some [.name path])
    (cell : row path = some stored) (negated : Bool) (present : texts ≠ []) :
    collated same row (column ++ (if negated then " NOT IN " else " IN ") ++
        Text.bracketed (Text.join ", " (texts.map mysql.dialect.quoteText))) =
      some (texts.any (same stored) != negated) := by
  rw [collated, lexemes?_among named negated present, Option.bind_some]
  exact answer_amongTest cell negated present

/-- Comparisons do not. -/
theorem collated_chain (named : mysql.lexemes? column = some [.name path])
    (cell : row path = some stored) (negated : Bool) (present : texts ≠ []) :
    collated same row (chainText negated (texts.map fun text =>
        mysql.dialect.compareText column (equality negated) (mysql.dialect.quoteText text))) =
      some (texts.contains stored != negated) := by
  have each : List.Forall₂ (fun text test => mysql.lexemes? text = some test)
      (texts.map fun text =>
        mysql.dialect.compareText column (equality negated) (mysql.dialect.quoteText text))
      (texts.map (bytesTest path negated)) := by
    rw [List.forall₂_map_left_iff, List.forall₂_map_right_iff, List.forall₂_same]
    exact fun text _ => lexemes?_compareText named negated text
  match texts with
  | [] => exact absurd rfl present
  | [text] =>
      change collated same row (mysql.dialect.compareText column (equality negated)
        (mysql.dialect.quoteText text)) = _
      rw [collated, lexemes?_compareText named, Option.bind_some]
      refine (answer_bytesTest cell negated text).trans ?_
      simp [Bool.beq_eq_decide_eq]
  | first :: second :: others =>
      have opens : idle.run mysql "(".toList = some ([.symbol '('], idle) := rfl
      have chain := lexemes?_chain negated each (by simp)
      change collated same row (Text.bracketed _) = _
      rw [collated, Text.bracketed, lexemes?_enclosed opens chain, Option.bind_some]
      exact answerAll_chainTest cell negated (by simp)

end Answers

end BuiltinDialect

end RowQuery
