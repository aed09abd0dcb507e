import RowQuery.Proofs.Spelling.Literal

/-!
# A grammar of SQL statements

The statements that are written, as lexemes: SELECT, UPDATE and INSERT with their clauses in the
order in which these stand.  Every list has a known number of members.  Those of GROUP BY, SET,
INSERT and RETURNING have at least one; the fields of a SELECT and the terms of ORDER BY are as many
as were asked for.
-/

namespace RowQuery

open RowQuery.Number

namespace Sql

/-- So many members with commas between them. -/
inductive Listed (member : List Lexeme → Prop) : Nat → List Lexeme → Prop
  | nil : Listed member 0 []
  | single {only : List Lexeme} : member only → Listed member 1 only
  | cons {n : Nat} {first rest : List Lexeme} : member first → Listed member (n + 1) rest →
      Listed member (n + 2) (first ++ .symbol ',' :: rest)

/-- Where no member is empty, only the list without members is. -/
theorem Listed.eq_nil_iff {member : List Lexeme → Prop} (present : ∀ only, member only → only ≠ [])
    {n : Nat} {lexemes : List Lexeme} (listed : Listed member n lexemes) :
    lexemes = [] ↔ n = 0 := by
  cases listed with
  | nil => simp
  | single only => simp [present _ only]
  | cons => simp

/-- A quoted name. -/
inductive NamePhrase : List Lexeme → Prop
  | intro (name : String) : NamePhrase [.name [name]]

/-- An expression, perhaps under a name. -/
inductive FieldPhrase (hollow : Prop) : List Lexeme → Prop
  | plain {field : List Lexeme} : Phrase hollow .expression field → FieldPhrase hollow field
  | named {field : List Lexeme} (name : String) : Phrase hollow .expression field →
      FieldPhrase hollow (field ++ [.word "AS", .name [name]])

/-- An expression to sort by. -/
inductive SortPhrase (hollow : Prop) : List Lexeme → Prop
  | ascending {term : List Lexeme} : Phrase hollow .expression term → SortPhrase hollow term
  | descending {term : List Lexeme} : Phrase hollow .expression term →
      SortPhrase hollow (term ++ [.word "DESC"])

/-- The new value of a column. -/
inductive SetPhrase (hollow : Prop) : List Lexeme → Prop
  | intro (column : String) {value : List Lexeme} : Phrase hollow .expression value →
      SetPhrase hollow (.name [column] :: .symbol '=' :: value)

theorem FieldPhrase.ne_nil {lexemes : List Lexeme} (field : FieldPhrase False lexemes) :
    lexemes ≠ [] := by
  cases field with
  | plain expression => exact expression.ne_nil
  | named => simp

theorem SortPhrase.ne_nil {lexemes : List Lexeme} (term : SortPhrase False lexemes) :
    lexemes ≠ [] := by
  cases term with
  | ascending expression => exact expression.ne_nil
  | descending => simp

/-! ## Clauses -/

inductive SourceRole where
  /-- A table, or joined tables in brackets. -/
  | operand
  | tables

/-- The tables of a FROM clause.  The right side of a join is one table or stands in brackets. -/
inductive Source (hollow : Prop) : SourceRole → List Lexeme → Prop
  | table (name : String) : Source hollow .operand [.name [name]]
  | renamed (name label : String) :
      Source hollow .operand [.name [name], .word "AS", .name [label]]
  | bracketed {inner : List Lexeme} : Source hollow .tables inner →
      Source hollow .operand (.symbol '(' :: (inner ++ [.symbol ')']))
  | single {table : List Lexeme} : Source hollow .operand table → Source hollow .tables table
  | join {kind : String} {near far condition : List Lexeme} : kind ∈ ["INNER", "LEFT", "RIGHT"] →
      Source hollow .tables near → Source hollow .operand far →
      Phrase hollow .expression condition → Source hollow .tables
        (near ++ (.word kind :: .word "JOIN" :: (far ++ (.word "ON" :: condition))))

/-- The condition of a statement, if there is one. -/
inductive WhereClause (hollow : Prop) : List Lexeme → Prop
  | none : WhereClause hollow []
  | condition {condition : List Lexeme} : Phrase hollow .expression condition →
      WhereClause hollow (.word "WHERE" :: condition)

inductive GroupClause (hollow : Prop) : List Lexeme → Prop
  | none : GroupClause hollow []
  | terms {n : Nat} {terms : List Lexeme} : Listed (Phrase hollow .expression) (n + 1) terms →
      GroupClause hollow (.word "GROUP" :: .word "BY" :: terms)

/-- The order, by so many terms if there is one. -/
inductive OrderClause (hollow : Prop) : Option Nat → List Lexeme → Prop
  | none : OrderClause hollow none []
  | terms {n : Nat} {terms : List Lexeme} : Listed (SortPhrase hollow) n terms →
      OrderClause hollow (some n) (.word "ORDER" :: .word "BY" :: terms)

/-- The limit behind SELECT and that behind the statement, of which there is one at most. -/
inductive Limits : Option Nat → Option Nat → List Lexeme → List Lexeme → Prop
  | none : Limits none none [] []
  | top (limit : Nat) : Limits (some limit) none [.word "TOP", .word (natText limit)] []
  | limit (limit : Nat) : Limits (some limit) none [] [.word "LIMIT", .word (natText limit)]
  | limitOffset (limit offset : Nat) : Limits (some limit) (some offset) []
      [.word "LIMIT", .word (natText limit), .word "OFFSET", .word (natText offset)]
  | offset (offset : Nat) :
      Limits none (some offset) [] [.word "OFFSET", .word (natText offset)]
  /-- An offset behind a limit that is none. -/
  | unlimited (sign : List Lexeme) {figure : String} (offset : Nat) :
      sign ∈ [[], [.symbol '-']] → isFigure figure = true →
      Limits none (some offset) [] (.word "LIMIT" :: (sign ++
        [.word figure, .word "OFFSET", .word (natText offset)]))

/-- The generated columns that an INSERT returns, if it does. -/
inductive ReturningClause : List Lexeme → Prop
  | none : ReturningClause []
  | names {n : Nat} {names : List Lexeme} : Listed NamePhrase (n + 1) names →
      ReturningClause (.word "RETURNING" :: names)

/-! ## Statements -/

/-- What is asked of a SELECT: whether the rows differ, how many fields there are, by how many terms
the rows are sorted, and how many are left out. -/
structure SelectShape where
  distinct : Bool
  width : Nat
  order : Option Nat
  limit : Option Nat
  offset : Option Nat

inductive SelectStatement (hollow : Prop) (shape : SelectShape) : List Lexeme → Prop
  | intro {distinct top fields tables condition groups order limit : List Lexeme} :
      distinct = (if shape.distinct then [.word "DISTINCT"] else []) →
      Limits shape.limit shape.offset top limit →
      Listed (FieldPhrase hollow) shape.width fields → Source hollow .tables tables →
      WhereClause hollow condition → GroupClause hollow groups →
      OrderClause hollow shape.order order → SelectStatement hollow shape
        (.word "SELECT" :: (distinct ++ (top ++ (fields ++ (.word "FROM" :: (tables ++
          (condition ++ (groups ++ (order ++ limit)))))))))

inductive UpdateStatement (hollow : Prop) (assignments : Nat) : List Lexeme → Prop
  | intro (table : String) {sets condition : List Lexeme} : assignments ≠ 0 →
      Listed (SetPhrase hollow) assignments sets → WhereClause hollow condition →
      UpdateStatement hollow assignments
        (.word "UPDATE" :: .name [table] :: .word "SET" :: (sets ++ condition))

/-- `blank` is how a dialect writes a row of defaults. -/
inductive InsertStatement (hollow : Prop) (blank : List Lexeme) : List Lexeme → Prop
  | row (table : String) {n : Nat} {names values returning : List Lexeme} :
      Listed NamePhrase (n + 1) names → Listed (Phrase hollow .expression) (n + 1) values →
      ReturningClause returning → InsertStatement hollow blank
        (.word "INSERT" :: .word "INTO" :: .name [table] :: .symbol '(' :: (names ++
          (.symbol ')' :: .word "VALUES" :: .symbol '(' :: (values ++
            (.symbol ')' :: returning)))))
  | blank (table : String) {returning : List Lexeme} : ReturningClause returning →
      InsertStatement hollow blank
        (.word "INSERT" :: .word "INTO" :: .name [table] :: (blank ++ returning))

end Sql

open Sql

namespace BuiltinDialect

/-- A row of defaults in an INSERT. -/
def blankRow : BuiltinDialect → List Lexeme
  | mysql => [.symbol '(', .symbol ')', .word "VALUES", .symbol '(', .symbol ')']
  | ansi | postgres | sqlite => [.word "DEFAULT", .word "VALUES"]

variable {d : BuiltinDialect} {hollow openers : Prop} {text : String} {lexemes : List Lexeme}

/-! ## Texts of several parts -/

/-- Texts one after the other, and the lexemes of all of them. -/
inductive Sequence (d : BuiltinDialect) (openers : Prop) : List String → List Lexeme → Prop
  | nil : Sequence d openers [] []
  | cons {text : String} {texts : List String} {lexemes later : List Lexeme} :
      d.ScansTo openers text lexemes → Sequence d openers texts later →
      Sequence d openers (text :: texts) (lexemes ++ later)

namespace Sequence

variable {texts more : List String} {later : List Lexeme}

theorem single (scans : d.ScansTo openers text lexemes) : d.Sequence openers [text] lexemes := by
  have whole := Sequence.cons scans .nil
  rwa [List.append_nil] at whole

theorem append (first : d.Sequence openers texts lexemes)
    (second : d.Sequence openers more later) :
    d.Sequence openers (texts ++ more) (lexemes ++ later) := by
  induction first with
  | nil => exact second
  | cons scans _ ih =>
      rw [List.append_assoc]
      exact .cons scans ih

/-- The parts with blanks between them. -/
theorem spaced (sequence : d.Sequence openers texts lexemes) :
    d.ScansTo openers (spaced texts) lexemes := by
  have blank : d.fixed? " " = some [] := by cases d <;> rfl
  induction sequence with
  | nil => cases d <;> exact .closed rfl rfl
  | @cons text texts lexemes later scans rest ih =>
      cases rest with
      | nil =>
          rw [List.append_nil]
          exact scans
      | @cons next texts lexemes' later' scans' rest' =>
          have shown : RowQuery.spaced (text :: next :: texts) =
              text ++ (" " ++ RowQuery.spaced (next :: texts)) := by
            simp only [RowQuery.spaced, Text.join, String.append_assoc]
          have behind := ScansTo.opening blank ih
          rw [shown]
          exact .operand scans (.append (.of_head rfl rfl) _) behind

end Sequence

/-- Texts of members with commas between them. -/
theorem scans_listed {member : List Lexeme → Prop} {texts : List String}
    (each : ∀ text ∈ texts, ∃ lexemes, d.ScansTo openers text lexemes ∧ member lexemes) :
    ∃ lexemes, d.ScansTo openers (Text.join ", " texts) lexemes ∧
      Listed member texts.length lexemes := by
  induction texts with
  | nil => exact ⟨[], by cases d <;> exact .closed rfl rfl, .nil⟩
  | cons text texts ih =>
      rw [List.forall_mem_cons] at each
      obtain ⟨first, scans, isMember⟩ := each.1
      cases texts with
      | nil => exact ⟨first, scans, .single isMember⟩
      | cons next texts =>
          obtain ⟨rest, scans', listed⟩ := ih each.2
          have comma : d.fixed? ", " = some [.symbol ','] := by cases d <;> rfl
          rw [Text.join, String.append_assoc]
          · refine ⟨first ++ .symbol ',' :: rest, ?_, .cons isMember listed⟩
            exact .operand scans (.append (.of_head rfl rfl) _) (.opening comma scans')
          · exact List.cons_ne_nil _ _

theorem scans_natText (n : Nat) : d.ScansTo openers (natText n) [.word (natText n)] :=
  .wordy (.digits n)

/-! ## Limits -/

/-- A keyword and a number. -/
theorem sequence_limit {keyword : String}
    (known : d.ScansTo openers keyword [.word keyword]) (n : Nat) {texts : List String}
    (rest : d.Sequence openers texts lexemes) : d.Sequence openers (keyword :: natText n :: texts)
      (.word keyword :: .word (natText n) :: lexemes) :=
  .cons known (.cons (scans_natText n) rest)

theorem scans_limitClause (limit offset : Option Nat) :
    ∃ lexemes, d.Sequence openers (d.dialect.limitClause limit offset).toList lexemes ∧
      Limits limit offset [] lexemes := by
  have limitWord : d.ScansTo openers "LIMIT" [.word "LIMIT"] := by cases d <;> exact .closed rfl rfl
  have offsetWord : d.ScansTo openers "OFFSET" [.word "OFFSET"] := by
    cases d <;> exact .closed rfl rfl
  have both (limit offset : Nat) : d.ScansTo openers
      (spaced ["LIMIT", natText limit, "OFFSET", natText offset])
      [.word "LIMIT", .word (natText limit), .word "OFFSET", .word (natText offset)] :=
    (sequence_limit limitWord limit (sequence_limit offsetWord offset .nil)).spaced
  have alone (limit : Nat) : d.ScansTo openers (spaced ["LIMIT", natText limit])
      [.word "LIMIT", .word (natText limit)] :=
    (sequence_limit limitWord limit .nil).spaced
  have unlimited {figure : String} {number : List Lexeme}
      (known : d.ScansTo openers figure number) (offset : Nat) : d.ScansTo openers
        (spaced ["LIMIT", figure, "OFFSET", natText offset])
        (.word "LIMIT" :: (number ++ [.word "OFFSET", .word (natText offset)])) :=
    Sequence.spaced (.cons limitWord (.cons known (sequence_limit offsetWord offset .nil)))
  cases limit with
  | some limit =>
      cases offset with
      | some offset =>
          refine ⟨_, ?_, .limitOffset limit offset⟩
          cases d <;> exact .single (both limit offset)
      | none =>
          refine ⟨_, ?_, .limit limit⟩
          cases d <;> exact .single (alone limit)
  | none =>
      cases offset with
      | none =>
          refine ⟨_, ?_, .none⟩
          cases d <;> exact .nil
      | some offset =>
          cases d with
          | ansi | postgres =>
              exact ⟨_, .single (sequence_limit offsetWord offset .nil).spaced, .offset offset⟩
          | mysql =>
              have most : mysql.ScansTo openers "18446744073709551615"
                  [.word "18446744073709551615"] := .closed rfl rfl
              exact ⟨_, .single (unlimited most offset), .unlimited [] offset (by decide) rfl⟩
          | sqlite =>
              have most : sqlite.ScansTo openers "-1" [.symbol '-', .word "1"] := .closed rfl rfl
              exact ⟨_, .single (unlimited most offset),
                .unlimited [.symbol '-'] offset (by decide) rfl⟩

end BuiltinDialect

end RowQuery
