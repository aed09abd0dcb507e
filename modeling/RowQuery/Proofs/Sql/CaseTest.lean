import RowQuery.Proofs.Piece
import RowQuery.Proofs.Sql.LikeTest
import RowQuery.Proofs.Text.Case

/-!
# Tests without regard to case

The tests whether a text starts with, ends with, contains or equals another one in any case.  Where
a database folds the letters from A to Z only, what is written for such a test has an answer of its
own.  It is read with this folding, and compared with the test outside of the database, which
converts all letters.
-/

namespace RowQuery

open Sql

/-- A test of a text and a piece without regard to case. -/
inductive CaseTest where
  | affix (affix : Affix)
  | equal

namespace CaseTest

/-- The function that makes the test. -/
def name : CaseTest → String
  | affix .front => "istartswith"
  | affix .back => "iendswith"
  | affix .within => "icontains"
  | equal => "ieq"

def function : CaseTest → Function
  | affix a => .ofAffix a true
  | equal => .equalIgnoringCase

/-- The answer of the test if texts are converted in a certain way. -/
def holds (fold : String → String) : CaseTest → String → String → Bool
  | affix a, text, piece => a.holds (fold text) (fold piece)
  | equal, text, piece => fold text == fold piece

theorem get?_name (test : CaseTest) :
    FunctionLibrary.standardFunctions.get? test.name = some test.function := by
  rcases test with (_ | _ | _) | _ <;> rfl

theorem toList_lower (text : String) : (Text.lower text).toList = Text.lowerFrom [] text.toList :=
  String.toList_ofList

theorem toList_asciiLower (text : String) :
    (Text.asciiLower text).toList = text.toList.map Char.toLower :=
  String.toList_ofList

theorem near_of_isAscii {text : String} (ascii : Affix.isAscii text = true) :
    ∀ c ∈ text.toList, c.toNat < 128 := by
  simpa [Affix.isAscii] using ascii

/-- The lower-case form of an ASCII piece occurs only where the piece does up to ASCII case. -/
theorem occurs_of_lower (a : Affix) {text piece : List Char} (near : ∀ c ∈ piece, c.toNat < 128)
    (alike : Text.FoldsAlike text piece)
    (occurs : a.Occurs (Text.lowerFrom [] piece) (Text.lowerFrom [] text)) :
    a.Occurs (piece.map Char.toLower) (text.map Char.toLower) := by
  cases piece with
  | nil => cases a <;> simp [Affix.Occurs]
  | cons b piece =>
      cases a with
      | front =>
          obtain ⟨behind, same⟩ := occurs
          obtain ⟨first, rest, rfl, folded, -⟩ := Text.exists_front_of_lowerFrom alike same.symm
          exact ⟨rest.map Char.toLower, by rw [← folded, List.map_append]⟩
      | back =>
          obtain ⟨front, same⟩ := occurs
          obtain ⟨first, middle, rest, rfl, folded, -, ended⟩ :=
            Text.exists_infix_of_lowerFrom near alike (by rw [List.append_nil, same])
          rw [ended rfl, List.append_nil]
          exact ⟨first.map Char.toLower, by rw [← folded, List.map_append]⟩
      | within =>
          obtain ⟨front, behind, same⟩ := occurs
          obtain ⟨first, middle, rest, rfl, folded, -, -⟩ :=
            Text.exists_infix_of_lowerFrom near alike (by rw [← List.append_assoc, same])
          exact ⟨first.map Char.toLower, rest.map Char.toLower, by simp [← folded]⟩

/-- What is accepted with all letters converted is accepted with ASCII letters converted, if
letters fold alike. -/
theorem holds_ascii (test : CaseTest) {text piece : String}
    (known : test = equal ∨ Affix.isAscii piece = true)
    (alike : Text.FoldsAlike text.toList piece.toList)
    (accepted : test.holds Text.lower text piece = true) :
    test.holds Text.asciiLower text piece = true := by
  cases test with
  | equal =>
      have same := congrArg String.toList (beq_iff_eq.1 accepted)
      rw [toList_lower, toList_lower, ← List.append_nil (Text.lowerFrom [] piece.toList)] at same
      obtain ⟨first, rest, split, folded, ended⟩ := Text.exists_front_of_lowerFrom alike same
      rw [ended rfl, List.append_nil] at split
      rw [holds, beq_iff_eq, ← String.toList_inj, toList_asciiLower, toList_asciiLower, split,
        folded]
  | affix a =>
      have ascii := near_of_isAscii (known.resolve_left nofun)
      rw [holds, Affix.holds_iff, toList_lower, toList_lower] at accepted
      rw [holds, Affix.holds_iff, toList_asciiLower, toList_asciiLower]
      exact occurs_of_lower a ascii alike accepted

/-- On ASCII texts both conversions are the same. -/
theorem holds_of_isAscii (test : CaseTest) {text piece : String}
    (text_ascii : Affix.isAscii text = true) (piece_ascii : Affix.isAscii piece = true) :
    test.holds Text.asciiLower text piece = test.holds Text.lower text piece := by
  have same {text : String} (ascii : Affix.isAscii text = true) :
      Text.asciiLower text = Text.lower text := by
    rw [← String.toList_inj, toList_asciiLower, toList_lower,
      Text.lowerFrom_of_ascii (near_of_isAscii ascii)]
  cases test <;> simp only [holds, same text_ascii, same piece_ascii]

end CaseTest

namespace Sql

/-! ## Reading a test -/

/-- Read an equality of texts in lower case behind its first word. -/
def evalEquality (inner : Reader) (text : List Char) : Option Bool := do
  let (left, text) ← inner text
  let (right, text) ← inner (← expect ") = LOWER(" text)
  if text = [')'] then some (left.map Char.toLower == right.map Char.toLower) else none

/-- Read a LIKE test.  Letters match in any ASCII case. -/
def evalLike (quotation : Quotation) (inner : Reader) (text : List Char) : Option Bool := do
  let (subject, text) ← inner text
  let (pattern, text) ← inner (← expect " LIKE " text)
  match quotation.read (← expect " ESCAPE " text) with
  | some ([escape], []) =>
      some (likeMatches escape (pattern.map Char.toLower) (subject.map Char.toLower))
  | _ => none

section Extends

variable {more less : Reader} (extends_ : Extends more less) {text : List Char} {answer : Bool}

include extends_

theorem Extends.evalEquality (read : evalEquality less text = some answer) :
    Sql.evalEquality more text = some answer := by
  simp only [Sql.evalEquality, Option.bind_eq_bind, Option.bind_eq_some_iff] at read ⊢
  obtain ⟨left, first, rest, middle, right, second, ended⟩ := read
  exact ⟨left, extends_ _ _ first, rest, middle, right, extends_ _ _ second, ended⟩

theorem Extends.evalLike {quotation : Quotation}
    (read : evalLike quotation less text = some answer) :
    Sql.evalLike quotation more text = some answer := by
  simp only [Sql.evalLike, Option.bind_eq_bind, Option.bind_eq_some_iff] at read ⊢
  obtain ⟨subject, first, rest, keyword, pattern, second, ended⟩ := read
  exact ⟨subject, extends_ _ _ first, rest, keyword, pattern, extends_ _ _ second, ended⟩

end Extends

end Sql

namespace BuiltinDialect

variable (d : BuiltinDialect) (row : List Char → Option (List Char))

/-- Read a test of texts that are not nested too deeply. -/
def evalTest (depth : Nat) (sql : String) : Option Bool :=
  if sql = d.dialect.truthClause true then some true
  else if sql = d.dialect.truthClause false then some false
  else
    match expect "LOWER(" sql.toList with
    | some inside => evalEquality (d.evalText (d.columnReader row) depth) inside
    | none => evalLike d.textQuotation (d.evalText (d.columnReader row) depth) sql.toList

/-- The answer of a test on a row, where the database folds the letters from A to Z only. -/
def Answers (sql : String) (answer : Bool) : Prop :=
  ∃ depth, d.evalTest row depth sql = some answer

variable {d row} {sql : String}

theorem evalTest_mono {less more : Nat} (le : less ≤ more) {answer : Bool}
    (read : d.evalTest row less sql = some answer) : d.evalTest row more sql = some answer := by
  have extends_ := d.evalText_mono (d.columnReader row) le
  unfold evalTest at read ⊢
  split
  · rwa [if_pos ‹_›] at read
  · rw [if_neg ‹_›] at read
    split
    · rwa [if_pos ‹_›] at read
    · rw [if_neg ‹_›] at read
      split
      · rename_i inside found
        rw [found] at read
        exact extends_.evalEquality read
      · rename_i found
        rw [found] at read
        exact extends_.evalLike read

/-- A test has one answer. -/
theorem Answers.iff {answer other : Bool} (found : d.Answers row sql answer) :
    d.Answers row sql other ↔ other = answer := by
  refine ⟨?_, fun same => same ▸ found⟩
  rintro ⟨depth', read'⟩
  obtain ⟨depth, read⟩ := found
  have first := evalTest_mono (Nat.le_max_left depth depth') read
  rw [evalTest_mono (Nat.le_max_right depth depth') read'] at first
  exact Option.some.inj first

theorem answers_truthClause (b : Bool) : d.Answers row (d.dialect.truthClause b) b := by
  refine ⟨0, ?_⟩
  cases b with
  | true => rw [evalTest, if_pos rfl]
  | false =>
      have other : d.dialect.truthClause false ≠ d.dialect.truthClause true := by
        cases d <;> decide
      rw [evalTest, if_neg other, if_pos rfl]

/-- A long text is no truth value. -/
theorem ne_truthClause (long : 5 < sql.length) (b : Bool) : sql ≠ d.dialect.truthClause b := by
  rintro rfl
  revert long
  cases d <;> cases b <;> decide

/-- No expression of a text begins with the word of an equality. -/
theorem Evaluates.expect_lower {value rest : List Char}
    (evaluates : d.Evaluates (d.columnReader row) sql value) (separated : Lexer.Separated rest) :
    expect "LOWER(" (sql.toList ++ rest) = none := by
  obtain ⟨depth, read⟩ := evaluates rest separated
  generalize sql.toList ++ rest = text at read
  match text, depth, read with
  | [], _, _ => rfl
  | c :: text, depth + 1, read =>
      by_cases letter : c = 'L'
      · subst letter
        have noReplace : expect "REPLACE(" ('L' :: text) = none := rfl
        have other : expect d.concatMarks.1 ('L' :: text) = none ∧
            d.textQuotation.read ('L' :: text) = none ∧
            d.nameQuotation.read ('L' :: text) = none := by
          cases d <;> exact ⟨rfl, rfl, rfl⟩
        rw [evalText, noReplace, other.1, other.2.1] at read
        simp [columnReader, other.2.2] at read
      · exact if_neg (Ne.symm letter)

theorem Evaluates.answers_equality {a b : String} {x y : List Char}
    (left : d.Evaluates (d.columnReader row) a x) (right : d.Evaluates (d.columnReader row) b y) :
    d.Answers row (spaced [callText "LOWER" [a], "=", callText "LOWER" [b]])
      (x.map Char.toLower == y.map Char.toLower) := by
  have written : (spaced [callText "LOWER" [a], "=", callText "LOWER" [b]]).toList =
      "LOWER(".toList ++ (a.toList ++ (") = LOWER(".toList ++ (b.toList ++ [')']))) := by
    simp [spaced, callText, Text.join]
  have long : 5 < (spaced [callText "LOWER" [a], "=", callText "LOWER" [b]]).length := by
    rw [← String.length_toList, written]
    simp
  obtain ⟨depth, first⟩ := left (") = LOWER(".toList ++ (b.toList ++ [')']))
    (by simp [Lexer.Separated])
  obtain ⟨depth', second⟩ := right [')'] (by simp [Lexer.Separated])
  refine ⟨max depth depth', ?_⟩
  rw [evalTest, if_neg (ne_truthClause long true), if_neg (ne_truthClause long false), written,
    expect_append]
  simp only [evalEquality, Option.bind_eq_bind]
  rw [d.evalText_mono _ (Nat.le_max_left depth depth') _ _ first]
  simp only [Option.bind_some, expect_append]
  rw [d.evalText_mono _ (Nat.le_max_right depth depth') _ _ second]
  rfl

theorem Evaluates.answers_like {a p quoted : String} {escape : Char} {x y : List Char}
    (subject : d.Evaluates (d.columnReader row) a x)
    (pattern : d.Evaluates (d.columnReader row) p y)
    (closing : d.textQuotation.read quoted.toList = some ([escape], [])) :
    d.Answers row (spaced [a, "LIKE", p, "ESCAPE", quoted])
      (likeMatches escape (y.map Char.toLower) (x.map Char.toLower)) := by
  have written : (spaced [a, "LIKE", p, "ESCAPE", quoted]).toList =
      a.toList ++ (" LIKE ".toList ++ (p.toList ++ (" ESCAPE ".toList ++ quoted.toList))) := by
    simp [spaced, Text.join]
  have long : 5 < (spaced [a, "LIKE", p, "ESCAPE", quoted]).length := by
    rw [← String.length_toList, written]
    simp
    omega
  have apart (rest : List Char) : Lexer.Separated (" LIKE ".toList ++ rest) ∧
      Lexer.Separated (" ESCAPE ".toList ++ rest) := by
    simp [Lexer.Separated]
  obtain ⟨depth, first⟩ := subject _ (apart _).1
  obtain ⟨depth', second⟩ := pattern _ (apart quoted.toList).2
  refine ⟨max depth depth', ?_⟩
  rw [evalTest, if_neg (ne_truthClause long true), if_neg (ne_truthClause long false), written,
    subject.expect_lower (apart _).1]
  simp only [evalLike, Option.bind_eq_bind]
  rw [d.evalText_mono _ (Nat.le_max_left depth depth') _ _ first]
  simp only [Option.bind_some, expect_append]
  rw [d.evalText_mono _ (Nat.le_max_right depth depth') _ _ second]
  simp only [Option.bind_some, expect_append, closing]

end BuiltinDialect

/-! ## What is written for a test -/

/-- ASCII conversion leaves the special characters of patterns alone. -/
theorem isLikeSpecial_toLower (c : Char) : isLikeSpecial c.toLower = isLikeSpecial c := by
  by_cases near : c.toNat < 128
  · have each : ∀ n < 128, isLikeSpecial (Char.ofNat n).toLower = isLikeSpecial (Char.ofNat n) := by
      decide
    simpa only [Char.ofNat_toNat] using each c.toNat near
  · rw [Text.toLower_of_far (Nat.le_of_not_lt near)]

theorem map_toLower_escapeLike (text : List Char) :
    (escapeLike text).map Char.toLower = escapeLike (text.map Char.toLower) := by
  induction text with
  | nil => rfl
  | cons c text ih =>
      have step (c : Char) (text : List Char) : escapeLike (c :: text) =
          (if isLikeSpecial c then [likeEscape, c] else [c]) ++ escapeLike text :=
        List.flatMap_cons
      rw [step, List.map_append, ih, List.map_cons, step, isLikeSpecial_toLower]
      split <;> rfl

theorem Affix.map_toLower_pattern (a : Affix) (escaped : List Char) :
    (a.pattern escaped).map Char.toLower = a.pattern (escaped.map Char.toLower) := by
  cases a <;> simp [pattern]

/-- The pattern of a piece matches with ASCII letters folded what holds with them folded. -/
theorem Affix.likeMatches_folded (a : Affix) (text piece : String) :
    likeMatches likeEscape ((a.pattern (escapeLike piece.toList)).map Char.toLower)
      (text.toList.map Char.toLower) = (CaseTest.affix a).holds Text.asciiLower text piece := by
  rw [Bool.eq_iff_iff, map_toLower_pattern, map_toLower_escapeLike, likeMatches_pattern,
    CaseTest.holds, holds_iff, CaseTest.toList_asciiLower, CaseTest.toList_asciiLower]

/-- A piece is an expression of a text with this value on a row. -/
structure Piece.TextOn (c : CompileContext) (d : BuiltinDialect)
    (row : List Char → Option (List Char)) (p : Piece) (value : String) : Prop where
  exact : p.exact = true
  kind : p.fragment.kind = .text
  evaluates : d.Evaluates (d.columnReader row) (c.operand p).sql value.toList
  known : ∀ v, p.fragment.constant = some v → v = .text value

namespace Piece.TextOn

variable {c : CompileContext} {d : BuiltinDialect} {row : List Char → Option (List Char)}
variable {text : String} {type : ColumnType}

theorem column {name : String} {label : Option String}
    (present : row name.toList = some text.toList) :
    ({ fragment := { sql := d.dialect.quoteName name, kind := .text, type, name := label } } :
      Piece).TextOn c d row text :=
  ⟨rfl, rfl, .column d present, fun _ constant => by cases constant⟩

theorem literal : ({ fragment := .literal (d.dialect.quoteText text) (.text text) type } :
    Piece).TextOn c d row text :=
  ⟨rfl, rfl, .literal text, fun _ constant => (Option.some.inj constant).symm⟩

end Piece.TextOn

namespace CaseTest

variable {c : CompileContext} {d : BuiltinDialect} {row : List Char → Option (List Char)}
variable {p q piece : Piece} {text needle : String}

/-- The SQL form of a test, where only ASCII letters are folded. -/
theorem answers_render (test : CaseTest) (ascii : d.dialect.foldsUnicode = false)
    (dialect : c.dialect = d.dialect) (left : p.TextOn c d row text)
    (right : q.TextOn c d row needle) {rendering : Rendering}
    (rendered : test.function.render? c.dialect [c.operand p, c.operand q] = some rendering) :
    rendering.exact = true ∧ (test = equal ∨ Affix.isAscii needle = true) ∧
      d.Answers row rendering.fragment.sql (test.holds Text.asciiLower text needle) := by
  obtain rfl : d = .sqlite := by
    cases d <;> first | rfl | cases ascii
  have ofTexts : ¬((c.operand p).kind ≠ .text ∨ (c.operand q).kind ≠ .text) := by
    simp [left.kind, right.kind]
  rw [dialect] at rendered
  cases test with
  | equal =>
      change (if (c.operand p).kind ≠ .text ∨ (c.operand q).kind ≠ .text then none
        else typed? _ _ .bool) = some rendering at rendered
      rw [if_neg ofTexts, typed?, Option.map_eq_some_iff] at rendered
      obtain ⟨type, -, rfl⟩ := rendered
      refine ⟨rfl, .inl rfl, ?_⟩
      have same : (text.toList.map Char.toLower == needle.toList.map Char.toLower) =
          (Text.asciiLower text == Text.asciiLower needle) := by
        rw [Bool.eq_iff_iff, beq_iff_eq, beq_iff_eq, ← String.toList_inj, toList_asciiLower,
          toList_asciiLower]
      rw [holds, ← same]
      exact left.evaluates.answers_equality right.evaluates
  | affix a =>
      change a.render? true _ (c.operand p) (c.operand q) = some rendering at rendered
      rw [Affix.render?, if_neg ofTexts] at rendered
      split at rendered
      · cases rendered
      · rename_i folds
        have ascii : Affix.knownAscii (c.operand q) = true := by
          simpa [ascii] using folds
        rw [Affix.knownAscii, CompileContext.operand_constant] at ascii
        split at ascii
        · rename_i known constant
          obtain rfl : known = needle := Value.text.inj (right.known _ constant)
          obtain ⟨pattern, built, rest⟩ := Option.bind_eq_some_iff.1 rendered
          rw [Affix.pieceText?, CompileContext.operand_constant, constant] at built
          obtain rfl := Option.some.inj built
          obtain ⟨_, typedEq, ended⟩ := Option.bind_eq_some_iff.1 rest
          obtain ⟨type, -, rfl⟩ := Option.map_eq_some_iff.1 typedEq
          obtain rfl := Option.some.inj ended
          refine ⟨rfl, .inr ascii, ?_⟩
          have closing : BuiltinDialect.sqlite.textQuotation.read
              (BuiltinDialect.sqlite.dialect.quoteText escapeText).toList =
                some ([likeEscape], []) :=
            BuiltinDialect.read_quoteText escapeText
          have answer := left.evaluates.answers_like
            (.literal (String.ofList (a.pattern (escapeLike known.toList)))) closing
          rwa [String.toList_ofList, a.likeMatches_folded] at answer
        · cases ascii

theorem function?_name (test : CaseTest) {functions : FunctionLibrary}
    (library : functions.builtins = FunctionLibrary.standardFunctions) :
    functions.function? test.name = some test.function := by
  rw [FunctionLibrary.function?, library, get?_name]
  rfl

theorem apply_texts (test : CaseTest) (text needle : String) :
    test.function.apply test.name [.text text, .text needle] =
      .ok (.bool (test.holds Text.lower text needle)) := by
  rcases test with (_ | _ | _) | _ <;> rfl

/-- The value of a call of a test. -/
theorem eval_call (test : CaseTest) {scope : Scope}
    (library : scope.functions.builtins = FunctionLibrary.standardFunctions) {t u : Term}
    (textEq : t.eval scope = .ok (.text text)) (pieceEq : u.eval scope = .ok (.text needle)) :
    (Term.call test.name [t, u]).eval scope = .ok (.bool (test.holds Text.lower text needle)) := by
  have operands : Term.evalKnown scope [t, u] = .ok (some [.text text, .text needle]) := by
    simp only [Term.evalKnown, textEq, pieceEq]
    rfl
  rw [Term.eval, Scope.function, function?_name test library, operands]
  exact test.apply_texts text needle

/-- A call on known texts is known. -/
theorem answers_of_constants (test : CaseTest) (dialect : c.dialect = d.dialect)
    (left : p.TextOn c d row text) (right : q.TextOn c d row needle)
    (known : (p.fragment.isConstant && q.fragment.isConstant) = true)
    (compiled : c.call test.name test.function [p, q] = .ok piece) :
    piece.exact = true ∧
      d.Answers row piece.fragment.sql (test.holds Text.lower text needle) := by
  obtain ⟨first, second⟩ := Bool.and_eq_true_iff.1 known
  obtain ⟨v, constant⟩ := Option.isSome_iff_exists.1 first
  obtain ⟨w, constant'⟩ := Option.isSome_iff_exists.1 second
  obtain rfl := left.known v constant
  obtain rfl := right.known w constant'
  have values : [p, q].mapM (fun p => p.fragment.constant) = some [.text text, .text needle] := by
    simp [constant, constant']
  have foldable : test.function.isFoldable = true := by cases test <;> rfl
  rw [CompileContext.call, values] at compiled
  simp only [foldable, if_true, apply_texts] at compiled
  obtain ⟨type, rfl⟩ := CompileContext.truth_eq_ok compiled
  refine ⟨rfl, ?_⟩
  rw [dialect]
  exact BuiltinDialect.answers_truthClause _

/-- A call on other texts has its SQL form. -/
theorem answers_of_open (test : CaseTest) (ascii : d.dialect.foldsUnicode = false)
    (dialect : c.dialect = d.dialect) (left : p.TextOn c d row text)
    (right : q.TextOn c d row needle)
    (unknown : (p.fragment.isConstant && q.fragment.isConstant) = false)
    (compiled : c.call test.name test.function [p, q] = .ok piece) :
    piece.exact = true ∧ (test = equal ∨ Affix.isAscii needle = true) ∧
      d.Answers row piece.fragment.sql (test.holds Text.asciiLower text needle) := by
  have values : [p, q].mapM (fun p => p.fragment.constant) = none := by
    cases first : p.fragment.constant with
    | none => simp [first]
    | some v =>
        cases second : q.fragment.constant with
        | none => simp [first, second]
        | some w => simp [Fragment.isConstant, first, second] at unknown
  rw [CompileContext.call, values] at compiled
  obtain ⟨rendering, rendered, ended⟩ := Except.bind_eq_ok_iff.1 compiled
  obtain rfl := Except.ok.inj ended
  exact test.answers_render ascii dialect left right (Walk.ofOption_eq_ok_iff.1 rendered)

end CaseTest

/-- On a database that folds the letters from A to Z only, a test without regard to case is written
without reserve.  It has one answer, which is that of the test with ASCII letters folded, unless
both texts are known beforehand.  Rows that are accepted outside of the database are found if the
letters of both texts fold alike. -/
theorem case_tests_find {c : CompileContext} {d : BuiltinDialect} {params : List String}
    {row : List Char → Option (List Char)} {scope : Scope} {t u : Term} {p q piece : Piece}
    {text needle : String} (test : CaseTest) (ascii : d.dialect.foldsUnicode = false)
    (dialect : c.dialect = d.dialect)
    (library : c.functions.builtins = FunctionLibrary.standardFunctions)
    (functions : scope.functions = c.functions)
    (textCompiled : t.compile c params = .ok p) (pieceCompiled : u.compile c params = .ok q)
    (left : p.TextOn c d row text) (right : q.TextOn c d row needle)
    (textEq : t.eval scope = .ok (.text text)) (pieceEq : u.eval scope = .ok (.text needle))
    (compiled : (Term.call test.name [t, u]).compile c params = .ok piece) :
    (Term.call test.name [t, u]).eval scope = .ok (.bool (test.holds Text.lower text needle)) ∧
      piece.exact = true ∧
      (∀ answer, d.Answers row piece.fragment.sql answer ↔ answer =
        if p.fragment.isConstant && q.fragment.isConstant then test.holds Text.lower text needle
        else test.holds Text.asciiLower text needle) ∧
      (Affix.isAscii text = true → Affix.isAscii needle = true →
        d.Answers row piece.fragment.sql (test.holds Text.lower text needle)) ∧
      (test.holds Text.lower text needle = true →
        Text.FoldsAlike text.toList needle.toList → d.Answers row piece.fragment.sql true) := by
  have items : Term.compileItems c params [t, u] = .ok [p, q] :=
    Term.compileItems_eq_ok_iff.2
      (.cons ⟨textCompiled, left.exact⟩ (.cons ⟨pieceCompiled, right.exact⟩ .nil))
  rw [Term.compile, test.function?_name library, items] at compiled
  change c.call test.name test.function [p, q] = .ok piece at compiled
  rw [← functions] at library
  refine ⟨test.eval_call library textEq pieceEq, ?_⟩
  cases known : p.fragment.isConstant && q.fragment.isConstant with
  | true =>
      obtain ⟨exactness, answer⟩ := test.answers_of_constants dialect left right known compiled
      exact ⟨exactness, fun other => answer.iff, fun _ _ => answer, fun accepted _ =>
        accepted ▸ answer⟩
  | false =>
      obtain ⟨exactness, limits, answer⟩ :=
        test.answers_of_open ascii dialect left right known compiled
      refine ⟨exactness, fun other => answer.iff, fun first second => ?_, fun accepted alike => ?_⟩
      · exact test.holds_of_isAscii first second ▸ answer
      · exact test.holds_ascii limits alike accepted ▸ answer

section Words

/-- A table with one column of texts. -/
def wordsContext : CompileContext where
  dialect := .sqlite
  functions := .standard
  bindings := [.ofTable {
    name := "words", quotedName := "\"words\""
    columns := [{ key := "word", name := "word", quotedName := "\"word\"", kind := .text,
                  type := .longOf "TEXT" .varchar 0x40000000 }] }]

/-- A word is an accented letter, in any case. -/
def isAccented : Term :=
  .call "ieq" [.field (.param 0) "word", .constant (.text "É")]

theorem accent_is_lost :
    ∃ piece, isAccented.compile wordsContext ["w"] = .ok piece ∧ piece.exact = true ∧
      isAccented.eval { rows := [[("word", .text "é")]], functions := .standard } =
        .ok (.bool true) ∧
      BuiltinDialect.sqlite.Answers (fun _ => some "é".toList) piece.fragment.sql false := by
  have word : (Term.field (.param 0) "word").compile wordsContext ["w"] =
      .ok { fragment := { sql := BuiltinDialect.sqlite.dialect.quoteName "word", kind := .text,
                          type := .longOf "TEXT" .varchar 0x40000000, name := some "word" } } :=
    rfl
  have letter : ∃ type, (Term.constant (.text "É")).compile wordsContext ["w"] =
      .ok { fragment := .literal (BuiltinDialect.sqlite.dialect.quoteText "É") (.text "É") type } :=
    ⟨_, rfl⟩
  have compiled : ∃ piece, isAccented.compile wordsContext ["w"] = .ok piece := ⟨_, rfl⟩
  obtain ⟨type, letter⟩ := letter
  obtain ⟨piece, compiled⟩ := compiled
  obtain ⟨accepted, exactness, answers, -, -⟩ :=
    @case_tests_find wordsContext .sqlite ["w"] (fun _ => some "é".toList)
      { rows := [[("word", .text "é")]], functions := .standard } _ _ _ _ piece "é" "É" .equal
      rfl rfl rfl rfl word letter (.column rfl) .literal rfl rfl compiled
  have same : CaseTest.equal.holds Text.lower "é" "É" = true := by decide +kernel
  have apart : CaseTest.equal.holds Text.asciiLower "é" "É" = false := by decide +kernel
  exact ⟨piece, compiled, exactness, same ▸ accepted, (answers false).2 apart.symm⟩

end Words

end RowQuery
