import RowQuery.Compile.Piece
import RowQuery.Proofs.Sql.Lexing

/-!
# Reading SQL texts

The texts from which conditions are put together, read as expressions.  A text reads
as an expression with a power: it may stand wherever nothing that binds as strongly or
more strongly is around it.
-/

namespace RowQuery.Sql

open RowQuery.Number Lexer

/-- The expression of a text. -/
def parse (mark : Char) (text : String) : Option Expression :=
  (scan mark idle text.toList).bind parseTokens

/-- A text reads as an expression wherever what is around it is weaker. -/
def Reads (mark : Char) (power : Nat) (text : String) (e : Expression) : Prop :=
  ∃ tokens, Lexes mark text.toList tokens ∧ Spells power tokens e

/-- The text of an operator. -/
def Operator.text : Operator → String
  | or => "OR"
  | and => "AND"
  | compare op => op.sql
  | integer .plus => "+"
  | integer .minus => "-"
  | integer .times => "*"
  | integer .percent => "%"

variable {mark : Char} (isMark : IsMark mark)

include isMark

theorem Lexes.operator (op : Operator) : Lexes mark op.text.toList [op.token] := by
  rcases op with _ | _ | op | (_ | _ | _ | _)
  · exact keyword isMark rfl
  · exact keyword isMark rfl
  · exact comparison isMark op
  · exact symbol (by rcases isMark with rfl | rfl <;> rfl)
  · refine of_scan isMark .minus (fun rest => scan_start_silently _ ?_) rfl
    rcases isMark with rfl | rfl <;> rfl
  · exact symbol (by rcases isMark with rfl | rfl <;> rfl)
  · exact symbol (by rcases isMark with rfl | rfl <;> rfl)

namespace Reads

variable {power : Nat} {text : String} {e : Expression}

omit isMark in
theorem parse_eq (reads : Reads mark power text e) (positive : 0 < power) :
    parse mark text = some e := by
  obtain ⟨tokens, lexes, spells⟩ := reads
  rw [parse, lexes.scan_eq, Option.bind_some, spells.parseTokens_eq positive]

omit isMark in
theorem mono (reads : Reads mark power text e) {less : Nat} (le : less ≤ power) :
    Reads mark less text e := by
  obtain ⟨tokens, lexes, spells⟩ := reads
  exact ⟨tokens, lexes, spells.mono le⟩

theorem number (n : Nat) : Reads mark power (natText n) (.number n) := by
  refine ⟨[.number n], ?_, .atom fun _ => rfl⟩
  rw [natText, String.toList_ofList]
  exact .number isMark n

theorem truth (b : Bool) : Reads mark power (if b then "TRUE" else "FALSE") (.truth b) := by
  refine ⟨[.truth b], ?_, .atom fun _ => rfl⟩
  cases b <;> exact .keyword isMark rfl

theorem name (name : String) : Reads mark power (enclose mark name) (.column [name]) :=
  ⟨_, .name isMark name, .atom fun _ => rfl⟩

theorem qualified (label name : String) :
    Reads mark power (enclose mark label ++ "." ++ enclose mark name) (.column [label, name]) := by
  refine ⟨[.name [label, name]], ?_, .atom fun _ => rfl⟩
  have lexes := Lexes.qualified isMark label name
  rw [String.toList_append, String.toList_append, List.append_assoc]
  exact lexes

theorem bracketed (reads : Reads mark power text e) (positive : 0 < power) (outer : Nat) :
    Reads mark outer (Text.bracketed text) e := by
  obtain ⟨tokens, lexes, spells⟩ := reads
  refine ⟨_, ?_, spells.bracketed positive outer⟩
  have inside := lexes.bracketed isMark
  rw [Text.bracketed, String.toList_append, String.toList_append]
  exact inside

theorem operation (op : Operator) {l r : String} {a b : Expression}
    (left : Reads mark op.power l a) (right : Reads mark (op.power + 1) r b) :
    Reads mark op.power (RowQuery.spaced [l, op.text, r]) (op.apply a b) := by
  obtain ⟨ls, lexesLeft, spellsLeft⟩ := left
  obtain ⟨rs, lexesRight, spellsRight⟩ := right
  refine ⟨_, ?_, spellsLeft.operation spellsRight⟩
  have whole := lexesLeft.spaced isMark ((Lexes.operator isMark op).spaced isMark lexesRight)
  simpa [RowQuery.spaced, Text.join] using whole

/-- The sign of a number or a column; two of them in a row would begin a comment. -/
theorem negative {c : Char} {more : List Char} (begins : text.toList = c :: more)
    (single : c ≠ '-') (reads : Reads mark atomPower text e) :
    Reads mark (Frame.power .negative) ("-" ++ text) (.negative e) := by
  obtain ⟨tokens, lexes, spells⟩ := reads
  refine ⟨.minus :: tokens, ?_, .prefixed .negative (fun _ => rfl) spells (by decide)⟩
  rw [begins] at lexes
  have whole := lexes.minus isMark single
  rw [String.toList_append, begins]
  exact whole

theorem int (i : Int) : Reads mark (Frame.power .negative) (intText i) (.ofInt i) := by
  unfold intText Expression.ofInt
  split
  · cases written : digits i.natAbs with
    | nil => exact absurd written (digits_ne_nil _)
    | cons c more =>
        have digit := isDigit_of_mem_digits i.natAbs c (by simp [written])
        have begins : (natText i.natAbs).toList = c :: more := by simp [natText, written]
        refine negative isMark begins ?_ (number isMark _)
        rintro rfl
        cases digit
  · exact number isMark _

theorem not (reads : Reads mark power text e) (positive : 0 < power) :
    Reads mark (Frame.power .not) ("NOT " ++ Text.bracketed text) (.not e) := by
  obtain ⟨tokens, lexes, spells⟩ := reads.bracketed isMark positive atomPower
  refine ⟨.not :: tokens, ?_, .prefixed .not (fun _ => rfl) spells (by decide)⟩
  have keyword : Lexes mark ['N', 'O', 'T'] [.not] := .keyword isMark rfl
  have whole := keyword.spaced isMark lexes
  rw [String.toList_append]
  exact whole

theorem isNull (reads : Reads mark power text e) (stronger : Operator.comparisonPower < power)
    (negated : Bool) :
    Reads mark Operator.comparisonPower (CompileContext.nullTest text negated)
      (.isNull e negated) := by
  obtain ⟨tokens, lexes, spells⟩ := reads
  refine ⟨_, ?_, spells.isNull stronger negated⟩
  have is : Lexes mark ['I', 'S'] [.is] := .keyword isMark rfl
  have not : Lexes mark ['N', 'O', 'T'] [.not] := .keyword isMark rfl
  have null : Lexes mark ['N', 'U', 'L', 'L'] [.null] := .keyword isMark rfl
  rw [CompileContext.nullTest, String.toList_append]
  cases negated with
  | false => exact lexes.spaced isMark (is.spaced isMark null)
  | true => exact lexes.spaced isMark (is.spaced isMark (not.spaced isMark null))

/-- The members of a list, each behind a comma. -/
theorem lexes_members {texts : List String} {tokens : List (List Token)}
    (each : List.Forall₂ (fun text ts => Lexes mark text.toList ts) texts tokens) :
    Lexes mark (Text.join ", " texts).toList (Spells.memberTokens tokens) := by
  induction each with
  | nil => exact .nil
  | @cons text ts texts tokens head tail ih =>
      cases tail with
      | nil => exact head
      | cons head' tail =>
          have comma : start mark ',' = some ([.comma], idle) := by
            rcases isMark with rfl | rfl <;> rfl
          have whole := head.append (c := ',') (by simp [Separated]) comma
            (Lexes.nil.spaced isMark ih)
          rw [Text.join, String.toList_append, String.toList_append, Spells.memberTokens]
          · simpa [List.append_assoc] using whole
          · simp
          · simp

omit isMark in
/-- The tokens of several texts. -/
theorem exists_tokens {texts : List String} {es : List Expression}
    (each : List.Forall₂ (Reads mark power) texts es) :
    ∃ tokens : List (List Token),
      List.Forall₂ (fun text ts => Lexes mark text.toList ts) texts tokens ∧
        List.Forall₂ (Spells power) tokens es := by
  induction each with
  | nil => exact ⟨[], .nil, .nil⟩
  | cons head tail ih =>
      obtain ⟨ts, lexesHead, spellsHead⟩ := head
      obtain ⟨rest, lexesRest, spellsRest⟩ := ih
      exact ⟨ts :: rest, .cons lexesHead lexesRest, .cons spellsHead spellsRest⟩

/-- A membership test. -/
theorem among (reads : Reads mark power text e) (stronger : Operator.comparisonPower < power)
    (negated : Bool) {texts : List String} {members : List Expression}
    (each : List.Forall₂ (Reads mark power) texts members) (nonempty : texts ≠ []) :
    Reads mark Operator.comparisonPower
      (text ++ (if negated then " NOT IN " else " IN ") ++
        Text.bracketed (Text.join ", " texts))
      (.among e negated members) := by
  obtain ⟨tokens, lexes, spells⟩ := reads
  obtain ⟨memberTokens, lexesEach, spellsEach⟩ := exists_tokens each
  have someTokens : memberTokens ≠ [] := by
    rintro rfl
    exact nonempty (List.forall₂_nil_right_iff.1 lexesEach)
  refine ⟨_, ?_, spells.among stronger negated spellsEach someTokens⟩
  have within : Lexes mark ['I', 'N'] [.within] := .keyword isMark rfl
  have not : Lexes mark ['N', 'O', 'T'] [.not] := .keyword isMark rfl
  have list := within.spaced isMark ((lexes_members isMark lexesEach).bracketed isMark)
  rw [String.toList_append, String.toList_append, Text.bracketed, String.toList_append,
    String.toList_append, List.append_assoc]
  cases negated with
  | false => exact lexes.spaced isMark list
  | true => exact lexes.spaced isMark (not.spaced isMark list)

/-- Several texts, each behind an operator. -/
theorem lexes_chain (op : Operator) {texts : List String} {more : List (List Token)}
    (each : List.Forall₂ (fun text ts => Lexes mark text.toList ts) texts more) {text : String}
    {tokens : List Token} (first : Lexes mark text.toList tokens) :
    Lexes mark (Text.join (" " ++ op.text ++ " ") (text :: texts)).toList
      (tokens ++ more.flatMap (op.token :: ·)) := by
  induction each generalizing text tokens with
  | nil => simpa [Text.join] using first
  | cons head tail ih =>
      have whole := first.spaced isMark ((Lexes.operator isMark op).spaced isMark (ih head))
      simpa [Text.join, List.append_assoc] using whole

/-- Several texts with an operator between them. -/
theorem chain (op : Operator) {texts : List String} {es : List Expression}
    (each : List.Forall₂ (Reads mark (op.power + 1)) texts es) {text : String} {e : Expression}
    (first : Reads mark op.power text e) :
    Reads mark op.power (Text.join (" " ++ op.text ++ " ") (text :: texts))
      (es.foldl op.apply e) := by
  obtain ⟨tokens, lexes, spells⟩ := first
  obtain ⟨more, lexesEach, spellsEach⟩ := exists_tokens each
  exact ⟨_, lexes_chain isMark op lexesEach lexes, spells.chain spellsEach⟩

end Reads

end RowQuery.Sql
