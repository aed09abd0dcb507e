import Mathlib.Data.List.Infix
import RowQuery.Function.Affix
import RowQuery.Proofs.Sql.TextExpression

/-!
# Patterns

The matching of LIKE patterns.  The pattern for a piece of a text matches exactly the
texts in which the piece stands in its place: at the front, at the back or anywhere.
-/

namespace RowQuery

namespace Sql

/-- Whether a pattern matches the whole of a text: `%` stands for any run of characters,
`_` for any one character, and the escape character makes the next one stand for itself. -/
def likeMatches (escape : Char) : List Char → List Char → Bool
  | [], text => text.isEmpty
  | p :: pattern, text =>
      if p = escape then
        match pattern, text with
        | c :: pattern, t :: text => t == c && likeMatches escape pattern text
        | _, _ => false
      else if p = '%' then text.tails.any (likeMatches escape pattern)
      else
        match text with
        | t :: text => (p == '_' || t == p) && likeMatches escape pattern text
        | [] => false

section Matching

variable {escape : Char} {pattern text : List Char}

theorem likeMatches_escaped (c : Char) :
    likeMatches escape (escape :: c :: pattern) text = true ↔
      ∃ rest, text = c :: rest ∧ likeMatches escape pattern rest = true := by
  cases text with
  | nil => simp [likeMatches]
  | cons t text => simp [likeMatches]

theorem likeMatches_run (other : '%' ≠ escape) :
    likeMatches escape ('%' :: pattern) text = true ↔
      ∃ skipped rest, text = skipped ++ rest ∧ likeMatches escape pattern rest = true := by
  rw [likeMatches.eq_def]
  simp only [if_neg other, if_true, List.any_eq_true, List.mem_tails]
  constructor
  · rintro ⟨rest, ⟨skipped, rfl⟩, found⟩
    exact ⟨skipped, rest, rfl, found⟩
  · rintro ⟨skipped, rest, rfl, found⟩
    exact ⟨rest, List.suffix_append skipped rest, found⟩

theorem likeMatches_plain {c : Char} (plain : isLikeSpecial c = false) :
    likeMatches likeEscape (c :: pattern) text = true ↔
      ∃ rest, text = c :: rest ∧ likeMatches likeEscape pattern rest = true := by
  simp only [isLikeSpecial, Bool.or_eq_false_iff, beq_eq_false_iff_ne] at plain
  cases text with
  | nil => simp [likeMatches, plain]
  | cons t text =>
      rw [likeMatches.eq_def]
      simp [plain]

/-- An escaped piece matches itself and nothing else. -/
theorem likeMatches_escapeLike (piece : List Char) :
    likeMatches likeEscape (escapeLike piece ++ pattern) text = true ↔
      ∃ rest, text = piece ++ rest ∧ likeMatches likeEscape pattern rest = true := by
  induction piece generalizing text with
  | nil => simp [escapeLike]
  | cons c piece ih =>
      have step : likeMatches likeEscape (escapeLike (c :: piece) ++ pattern) text = true ↔
          ∃ rest, text = c :: rest ∧
            likeMatches likeEscape (escapeLike piece ++ pattern) rest = true := by
        cases special : isLikeSpecial c with
        | true =>
            have written : escapeLike (c :: piece) = likeEscape :: c :: escapeLike piece := by
              simp [escapeLike, special]
            rw [written]
            exact likeMatches_escaped c
        | false =>
            have written : escapeLike (c :: piece) = c :: escapeLike piece := by
              simp [escapeLike, special]
            rw [written]
            exact likeMatches_plain special
      rw [step]
      constructor
      · rintro ⟨_, rfl, found⟩
        obtain ⟨rest, rfl, left⟩ := ih.1 found
        exact ⟨rest, rfl, left⟩
      · rintro ⟨rest, rfl, found⟩
        exact ⟨piece ++ rest, rfl, ih.2 ⟨rest, rfl, found⟩⟩

end Matching

/-- Escaping one kind of special characters after the other, the escape character first. -/
theorem escapeLike_eq_replaceChar (text : List Char) :
    escapeLike text = Text.replaceChar '_' [likeEscape, '_']
      (Text.replaceChar '%' [likeEscape, '%']
        (Text.replaceChar likeEscape [likeEscape, likeEscape] text)) := by
  induction text with
  | nil => rfl
  | cons c text ih =>
      have step (old : Char) (new front rest : List Char) :
          Text.replaceChar old new (front ++ rest) =
            Text.replaceChar old new front ++ Text.replaceChar old new rest :=
        List.flatMap_append
      rw [← List.singleton_append, step, step, step, ← ih, escapeLike, List.flatMap_append]
      refine congrArg (· ++ _) ?_
      by_cases backslash : c = likeEscape
      · subst backslash
        decide
      · by_cases percent : c = '%'
        · subst percent
          decide
        · by_cases underscore : c = '_'
          · subst underscore
            decide
          · simp [isLikeSpecial, Text.replaceChar, backslash, percent, underscore]

end Sql

namespace Affix

open Sql

/-- The piece stands in its place in the text. -/
def Occurs : Affix → List Char → List Char → Prop
  | front, piece, text => piece <+: text
  | back, piece, text => piece <:+ text
  | within, piece, text => piece <:+: text

theorem contains_iff (piece text : List Char) :
    Text.contains piece text = true ↔ piece <:+: text := by
  induction text with
  | nil => simp [Text.contains]
  | cons c text ih => simp [Text.contains, ih, List.infix_cons_iff]

/-- The test outside of the database. -/
theorem holds_iff (affix : Affix) (text piece : String) :
    affix.holds text piece = true ↔ affix.Occurs piece.toList text.toList := by
  cases affix with
  | front => exact List.isPrefixOf_iff_prefix
  | back => exact List.isSuffixOf_iff_suffix
  | within => exact contains_iff _ _

theorem likeMatches_any (text : List Char) : likeMatches likeEscape ['%'] text = true :=
  (likeMatches_run (by decide)).2 ⟨text, [], by simp, rfl⟩

/-- The pattern of a piece matches the texts in which the piece stands in its place. -/
theorem likeMatches_pattern (affix : Affix) (piece text : List Char) :
    likeMatches likeEscape (affix.pattern (escapeLike piece)) text = true ↔
      affix.Occurs piece text := by
  cases affix with
  | front =>
      rw [pattern, likeMatches_escapeLike]
      constructor
      · rintro ⟨rest, rfl, -⟩
        exact List.prefix_append piece rest
      · rintro ⟨rest, rfl⟩
        exact ⟨rest, rfl, likeMatches_any rest⟩
  | back =>
      rw [pattern, likeMatches_run (by decide), Occurs]
      have whole (rest : List Char) :
          likeMatches likeEscape (escapeLike piece) rest = true ↔ rest = piece := by
        rw [← List.append_nil (escapeLike piece), likeMatches_escapeLike]
        simp [likeMatches]
      simp only [whole]
      constructor
      · rintro ⟨skipped, _, rfl, rfl⟩
        exact List.suffix_append skipped _
      · rintro ⟨skipped, rfl⟩
        exact ⟨skipped, piece, rfl, rfl⟩
  | within =>
      rw [pattern, likeMatches_run (by decide), Occurs]
      simp only [likeMatches_escapeLike, likeMatches_any, and_true]
      constructor
      · rintro ⟨skipped, _, rfl, rest, rfl⟩
        exact ⟨skipped, rest, List.append_assoc ..⟩
      · rintro ⟨skipped, rest, rfl⟩
        exact ⟨skipped, piece ++ rest, List.append_assoc .., rest, rfl⟩

end Affix

end RowQuery

/-!
# LIKE tests

The test whether a text starts with, ends with or contains a piece, as it is written in
SQL, has the answer of the test outside of the database.  The pattern is a literal for a
piece that is known, and otherwise an expression that escapes the piece by replacements;
both come to the same pattern.
-/

namespace RowQuery

open Sql

/-- A pattern gives the answers of the test for a piece. -/
def Affix.Answers (affix : Affix) (escape : Char) (pattern : List Char) (piece : String) : Prop :=
  ∀ text : String, likeMatches escape pattern text.toList = affix.holds text piece ∧
    (affix.holds text piece = true ↔ affix.Occurs piece.toList text.toList)

theorem Affix.answers_pattern (affix : Affix) (piece : String) :
    affix.Answers likeEscape (affix.pattern (escapeLike piece.toList)) piece := by
  intro text
  have both := affix.holds_iff text piece
  exact ⟨Bool.eq_iff_iff.2 ((affix.likeMatches_pattern _ _).trans both.symm), both⟩

namespace BuiltinDialect

variable (d : BuiltinDialect)

/-- A LIKE test of a subject with a pattern, perhaps in lower case or as bytes, that ends
with the literal of an escape character. -/
def IsLikeTest (subject pattern : String) (escape : Char) (sql : String) : Prop :=
  ∃ tested ∈ [subject, "LOWER(" ++ subject ++ ")", "CAST(" ++ subject ++ " AS BINARY)"],
    ∃ keyword ∈ ["LIKE", "ILIKE"], ∃ against ∈ [pattern, "LOWER(" ++ pattern ++ ")"],
      ∃ quoted, sql = spaced [tested, keyword, against, "ESCAPE", quoted] ∧
        d.textQuotation.read quoted.toList = some ([escape], [])

variable {d}

theorem read_quoteText (text : String) :
    d.textQuotation.read (d.dialect.quoteText text).toList = some (text.toList, []) := by
  rw [← List.append_nil (d.dialect.quoteText text).toList]
  exact (d.quoteText_encloses text).read_eq nofun

theorem isLikeTest_like (subject pattern : String) (ignoreCase : Bool) :
    d.IsLikeTest subject pattern likeEscape (d.dialect.like subject pattern ignoreCase).1 := by
  have escape := read_quoteText (d := d) escapeText
  cases d <;> cases ignoreCase <;>
    exact ⟨_, by simp, _, by simp, _, by simp, _, rfl, escape⟩

/-- Escaping by replacements, the escape character first. -/
theorem evaluates_escapePattern {operand : Reader} {sql piece : String}
    (evaluates : d.Evaluates operand sql piece.toList) :
    d.Evaluates operand (d.dialect.escapePattern sql) (escapeLike piece.toList) := by
  have replaced {text : String} {value : List Char} (c : Char)
      (inner : d.Evaluates operand text value) :
      d.Evaluates operand (callText "REPLACE" [text, d.dialect.quoteText (String.ofList [c]),
        d.dialect.quoteText (escapeText ++ String.ofList [c])])
        (Text.replaceChar c [likeEscape, c] value) := by
    have whole := inner.replace (.literal (String.ofList [c]))
      (.literal (escapeText ++ String.ofList [c]))
    have escaped : (escapeText ++ String.ofList [c]).toList = [likeEscape, c] := by
      simp [escapeText]
    rwa [String.toList_ofList, replaceAll_singleton, escaped] at whole
  have nested := replaced '_' (replaced '%' (replaced likeEscape evaluates))
  rw [escapeLike_eq_replaceChar]
  cases d <;> exact nested

theorem evaluates_patternText (affix : Affix) {operand : Reader} {sql : String}
    {escaped : List Char} (evaluates : d.Evaluates operand sql escaped) :
    d.Evaluates operand (affix.patternText d.dialect sql) (affix.pattern escaped) := by
  have wild : d.Evaluates operand (d.dialect.quoteText "%") ['%'] := .literal "%"
  cases affix with
  | front => exact evaluates.concat wild
  | back => exact wild.concat evaluates
  | within => exact (wild.concat evaluates).concat wild

variable (affix : Affix) (ignoreCase : Bool) (text piece : Fragment)

/-- The test has a literal for its pattern, and this is read as a pattern that gives the
answers for the piece. -/
def TestsLiteral (d : BuiltinDialect) (known : String) : Prop :=
  ∃ rendering sql escape pattern,
    affix.render? ignoreCase d.dialect text piece = some rendering ∧
      d.IsLikeTest text.sql sql escape rendering.fragment.sql ∧
      d.textQuotation.read sql.toList = some (pattern, []) ∧
      affix.Answers escape pattern known

/-- The test computes its pattern from the SQL of the piece, of which the operands are read
by a reader.  The replacements come to the escaped piece and nothing else, and the whole
expression to the pattern of the piece, which gives the answers for it. -/
def TestsComputed (d : BuiltinDialect) (operand : Reader) (value : String) : Prop :=
  ∃ rendering sql escape,
    affix.render? ignoreCase d.dialect text piece = some rendering ∧
      d.IsLikeTest text.sql sql escape rendering.fragment.sql ∧
      (∀ escaped, d.Evaluates operand (d.dialect.escapePattern piece.sql) escaped ↔
        escaped = escapeLike value.toList) ∧
      (∀ pattern, d.Evaluates operand sql pattern ↔
        pattern = affix.pattern (escapeLike value.toList)) ∧
      affix.Answers escape (affix.pattern (escapeLike value.toList)) value

section Rendering

variable {affix ignoreCase text piece} (textKind : text.kind = .text)
  (pieceKind : piece.kind = .text)
  (folds : ignoreCase = true → d.dialect.foldsUnicode = true ∨ Affix.knownAscii piece = true)

include textKind pieceKind folds

/-- A test whose case is folded alike inside and outside of the database is rendered. -/
theorem render?_isLikeTest {pattern : String}
    (built : affix.pieceText? d.dialect piece = some pattern) :
    ∃ rendering, affix.render? ignoreCase d.dialect text piece = some rendering ∧
      d.IsLikeTest text.sql pattern likeEscape rendering.fragment.sql := by
  have typed : ∃ type, resultType? d.dialect.types .bool = some type := by
    cases d <;> exact ⟨_, rfl⟩
  obtain ⟨type, typed⟩ := typed
  have allowed : ¬(ignoreCase && !d.dialect.foldsUnicode && !Affix.knownAscii piece) = true := by
    cases ignoreCase with
    | false => simp
    | true => rcases folds rfl with folds | ascii <;> simp [*]
  rw [Affix.render?, if_neg (by simp [textKind, pieceKind]), if_neg allowed, built]
  simp only [typed?, typed, Option.bind_eq_bind, Option.bind_some, Option.map_some]
  exact ⟨_, rfl, isLikeTest_like ..⟩

theorem testsLiteral {known : String} (constant : piece.constant = some (.text known)) :
    d.TestsLiteral affix ignoreCase text piece known := by
  let pattern := String.ofList (affix.pattern (escapeLike known.toList))
  have built : affix.pieceText? d.dialect piece = some (d.dialect.quoteText pattern) := by
    rw [Affix.pieceText?, constant]
  obtain ⟨rendering, rendered, test⟩ := render?_isLikeTest textKind pieceKind folds built
  have read := read_quoteText (d := d) pattern
  rw [String.toList_ofList] at read
  exact ⟨rendering, _, _, _, rendered, test, read, affix.answers_pattern known⟩

theorem testsComputed {operand : Reader} {value : String} (unknown : piece.constant = none)
    (evaluates : d.Evaluates operand piece.sql value.toList) :
    d.TestsComputed affix ignoreCase text piece operand value := by
  have built : affix.pieceText? d.dialect piece =
      some (affix.patternText d.dialect (d.dialect.escapePattern piece.sql)) := by
    rw [Affix.pieceText?, unknown]
  obtain ⟨rendering, rendered, test⟩ := render?_isLikeTest textKind pieceKind folds built
  have escaped := evaluates_escapePattern evaluates
  have whole := evaluates_patternText affix escaped
  refine ⟨rendering, _, _, rendered, test, fun _ => ?_, fun _ => ?_, affix.answers_pattern value⟩
  · exact ⟨fun found => found.unique escaped, fun same => same ▸ escaped⟩
  · exact ⟨fun found => found.unique whole, fun same => same ▸ whole⟩

/-- LIKE tests agree with the test outside of the database, for known pieces and for those
that the database computes. -/
theorem like_tests_agree :
    (∀ known, piece.constant = some (.text known) →
      d.TestsLiteral affix ignoreCase text piece known) ∧
    ∀ operand value, piece.constant = none → d.Evaluates operand piece.sql value.toList →
      d.TestsComputed affix ignoreCase text piece operand value :=
  ⟨fun _ constant => testsLiteral textKind pieceKind folds constant,
    fun _ _ unknown evaluates => testsComputed textKind pieceKind folds unknown evaluates⟩

end Rendering

/-- A column of texts. -/
def textColumn (name : String) : Fragment where
  sql := Dialect.mysql.quoteName name
  kind := .text
  type := .longOf "TEXT" .varchar 65535

/-- A text that contains all special characters, as a literal. -/
def specialText : Fragment :=
  .literal (Dialect.mysql.quoteText "\\%_'") (.text "\\%_'") (.longOf "TEXT" .varchar 65535)

theorem like_tests_specialText :
    mysql.TestsLiteral .front false (textColumn "name") specialText "\\%_'" ∧
      mysql.TestsComputed .within true (textColumn "name") (textColumn "piece")
        (mysql.columnReader fun _ => some "\\%_'".toList) "\\%_'" :=
  have sensitive : false = true → mysql.dialect.foldsUnicode = true ∨
      Affix.knownAscii specialText = true := nofun
  ⟨(like_tests_agree rfl rfl sensitive).1 _ rfl,
    (like_tests_agree rfl rfl fun _ => .inl rfl).2 _ _ rfl (.column mysql rfl)⟩

end BuiltinDialect

end RowQuery
