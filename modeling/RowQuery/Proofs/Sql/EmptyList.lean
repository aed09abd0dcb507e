import RowQuery.Proofs.Sql.Statement

/-!
# Lists without members

A SELECT without fields, or with an order without terms, can be told from its lexemes: no expression
begins with a word of a clause, and ORDER occurs in no other clause than its own.  So all readings
of a statement agree on whether one of its lists is empty.
-/

namespace RowQuery.Sql

open RowQuery.Number

/-- No list of the statement is empty. -/
def SelectShape.IsFull (shape : SelectShape) : Prop :=
  shape.width ≠ 0 ∧ shape.order ≠ some 0

/-- There are no fields between SELECT and FROM. -/
def lacksFields : List Lexeme → Bool
  | .word "SELECT" :: .word "DISTINCT" :: .word "TOP" :: _ :: .word "FROM" :: _ => true
  | .word "SELECT" :: .word "DISTINCT" :: .word "FROM" :: _ => true
  | .word "SELECT" :: .word "TOP" :: _ :: .word "FROM" :: _ => true
  | .word "SELECT" :: .word "FROM" :: _ => true
  | _ => false

/-- Behind ORDER BY the statement ends, or its limits follow. -/
def lacksTerms : List Lexeme → Bool
  | [] => false
  | [.word "ORDER", .word "BY"] => true
  | .word "ORDER" :: .word "BY" :: .word "LIMIT" :: _ => true
  | .word "ORDER" :: .word "BY" :: .word "OFFSET" :: _ => true
  | .word "ORDER" :: _ => false
  | _ :: lexemes => lacksTerms lexemes

/-! ## Fields -/

/-- The words of statements that no expression begins with. -/
def clauseWords : List String :=
  ["DISTINCT", "TOP", "FROM", "LIMIT", "OFFSET"]

/-- The lexeme does not begin a clause. -/
def Lexeme.isInner : Lexeme → Bool
  | word letters => !clauseWords.contains letters
  | text _ | name _ | symbol _ => true

theorem isInner_of_isFigure {letters : String} (figure : isFigure letters = true) :
    (Lexeme.word letters).isInner = true := by
  have other : ∀ clause ∈ clauseWords, isFigure clause = false := by decide
  rw [Lexeme.isInner, Bool.not_eq_true', List.contains_eq_mem, decide_eq_false_iff_not]
  exact fun among => absurd (figure.symm.trans (other letters among)) (by decide)

theorem Figures.exists_inner {number : List Lexeme} (figures : Figures number) :
    ∃ first rest, number = first :: rest ∧ first.isInner = true := by
  cases figures with
  | word figure | raised figure => exact ⟨_, _, rfl, isInner_of_isFigure figure⟩

/-- No expression begins with a word of a clause. -/
theorem Phrase.exists_inner {role : Role} {lexemes : List Lexeme}
    (phrase : Phrase False role lexemes) :
    ∃ first rest, lexemes = first :: rest ∧ first.isInner = true := by
  have known {words : List String} {letters : String} (among : letters ∈ words)
      (inner : ∀ letters ∈ words, (Lexeme.word letters).isInner = true) :
      (Lexeme.word letters).isInner = true := inner letters among
  induction phrase with
  | constant among | marked _ among | call among | timed among =>
      exact ⟨_, _, rfl, known among (by decide)⟩
  | figures figures => exact figures.exists_inner
  | fraction figure => exact ⟨_, _, rfl, isInner_of_isFigure figure⟩
  | text | typed | name | bracketed | negative => exact ⟨_, _, rfl, rfl⟩
  | not | cast | extract | today | rows => exact ⟨_, _, rfl, by decide⟩
  | missing never => exact never.elim
  | binary _ _ _ ih | like _ _ _ _ ih | isNull _ ih | isNotNull _ ih | among _ _ ih
  | notAmong _ _ ih | cons _ _ ih =>
      obtain ⟨first, rest, rfl, inner⟩ := ih
      exact ⟨first, _, rfl, inner⟩
  | single _ ih => exact ih

/-- A list with members begins as its first member does. -/
theorem Listed.exists_inner {member : List Lexeme → Prop}
    (inner : ∀ only, member only → ∃ first rest, only = first :: rest ∧ first.isInner = true)
    {n : Nat} {lexemes : List Lexeme} (listed : Listed member n lexemes) (present : n ≠ 0) :
    ∃ first rest, lexemes = first :: rest ∧ first.isInner = true := by
  cases listed with
  | nil => exact absurd rfl present
  | single only => exact inner _ only
  | cons first _ =>
      obtain ⟨lexeme, rest, rfl, isInner⟩ := inner _ first
      exact ⟨lexeme, _, rfl, isInner⟩

theorem FieldPhrase.exists_inner {lexemes : List Lexeme} (field : FieldPhrase False lexemes) :
    ∃ first rest, lexemes = first :: rest ∧ first.isInner = true := by
  cases field with
  | plain expression => exact expression.exists_inner
  | named name expression =>
      obtain ⟨first, rest, rfl, inner⟩ := expression.exists_inner
      exact ⟨first, _, rfl, inner⟩

theorem SortPhrase.exists_inner {lexemes : List Lexeme} (term : SortPhrase False lexemes) :
    ∃ first rest, lexemes = first :: rest ∧ first.isInner = true := by
  cases term with
  | ascending expression => exact expression.exists_inner
  | descending expression =>
      obtain ⟨first, rest, rfl, inner⟩ := expression.exists_inner
      exact ⟨first, _, rfl, inner⟩

theorem ne_of_isInner {first : Lexeme} (inner : first.isInner = true) :
    ∀ letters ∈ clauseWords, first ≠ .word letters := by
  rintro letters among rfl
  simp [Lexeme.isInner, among] at inner

section

variable {limit offset : Option Nat} {front back : List Lexeme}

theorem Limits.front_cases (limits : Limits limit offset front back) :
    front = [] ∨ ∃ figure, front = [.word "TOP", figure] := by
  cases limits <;> simp

theorem Limits.back_cases (limits : Limits limit offset front back) :
    back = [] ∨ (∃ rest, back = .word "LIMIT" :: rest) ∨ ∃ rest, back = .word "OFFSET" :: rest := by
  cases limits <;> simp

end

theorem lacksFields_iff {shape : SelectShape} {lexemes : List Lexeme}
    (statement : SelectStatement False shape lexemes) :
    lacksFields lexemes = true ↔ shape.width = 0 := by
  obtain ⟨rfl, limits, listed, -, -, -, -⟩ := statement
  by_cases width : shape.width = 0
  · rw [(listed.eq_nil_iff fun _ => FieldPhrase.ne_nil).2 width]
    rcases limits.front_cases with rfl | ⟨figure, rfl⟩ <;> cases shape.distinct <;>
      simp [lacksFields, width]
  · obtain ⟨first, rest, rfl, inner⟩ :=
      listed.exists_inner (fun _ => FieldPhrase.exists_inner) width
    have other := ne_of_isInner inner
    simp only [clauseWords, List.mem_cons, List.not_mem_nil, or_false, forall_eq_or_imp,
      forall_eq] at other
    obtain ⟨noDistinct, noTop, noFrom, -, -⟩ := other
    refine iff_of_false (fun lacks => ?_) width
    rcases limits.front_cases with rfl | ⟨figure, rfl⟩ <;>
      cases distinct : shape.distinct <;> rw [distinct] at lacks <;>
      unfold lacksFields at lacks <;> split at lacks <;> simp_all

/-! ## Sort terms -/

/-- ORDER begins nothing but its clause. -/
def Lexeme.isOrder : Lexeme → Bool
  | word letters => letters == "ORDER"
  | text _ | name _ | symbol _ => false

theorem isOrder_of_isFigure {letters : String} (figure : isFigure letters = true) :
    (Lexeme.word letters).isOrder = false := by
  refine beq_false_of_ne ?_
  rintro rfl
  exact absurd figure (by decide)

theorem Phrase.any_isOrder {hollow : Prop} {role : Role} {lexemes : List Lexeme}
    (phrase : Phrase hollow role lexemes) : lexemes.any Lexeme.isOrder = false := by
  refine List.any_eq_false.2 fun lexeme member order => ?_
  have known := List.all_eq_true.1 phrase.all_isKnown lexeme member
  cases lexeme with
  | word letters =>
      obtain rfl : letters = "ORDER" := eq_of_beq order
      exact absurd known (by decide)
  | text | name | symbol => cases order

/-- What comes before the order of a statement has no word of its own for one. -/
theorem Source.any_isOrder {hollow : Prop} {role : SourceRole} {lexemes : List Lexeme}
    (source : Source hollow role lexemes) : lexemes.any Lexeme.isOrder = false := by
  induction source with
  | table | renamed => rfl
  | single _ ih => exact ih
  | bracketed _ ih =>
      simp only [List.any_append, List.any_cons, List.any_nil, ih]
      rfl
  | @join kind _ _ _ known _ _ condition near far =>
      have word : ∀ kind ∈ ["INNER", "LEFT", "RIGHT"], (Lexeme.word kind).isOrder = false := by
        decide
      simp only [List.any_append, List.any_cons, word kind known, near, far, condition.any_isOrder]
      rfl

theorem Listed.any_isOrder {member : List Lexeme → Prop}
    (other : ∀ only, member only → only.any Lexeme.isOrder = false) {n : Nat}
    {lexemes : List Lexeme} (listed : Listed member n lexemes) :
    lexemes.any Lexeme.isOrder = false := by
  induction listed with
  | nil => rfl
  | single only => exact other _ only
  | cons first _ ih =>
      simp only [List.any_append, List.any_cons, other _ first, ih]
      rfl

theorem FieldPhrase.any_isOrder {hollow : Prop} {lexemes : List Lexeme}
    (field : FieldPhrase hollow lexemes) : lexemes.any Lexeme.isOrder = false := by
  cases field with
  | plain expression => exact expression.any_isOrder
  | named name expression =>
      simp only [List.any_append, expression.any_isOrder]
      rfl

theorem WhereClause.any_isOrder {hollow : Prop} {lexemes : List Lexeme}
    (clause : WhereClause hollow lexemes) : lexemes.any Lexeme.isOrder = false := by
  cases clause with
  | none => rfl
  | condition expression => exact expression.any_isOrder

theorem GroupClause.any_isOrder {hollow : Prop} {lexemes : List Lexeme}
    (clause : GroupClause hollow lexemes) : lexemes.any Lexeme.isOrder = false := by
  cases clause with
  | none => rfl
  | terms listed => exact listed.any_isOrder fun _ => Phrase.any_isOrder

theorem lacksTerms_append {first second : List Lexeme} (other : first.any Lexeme.isOrder = false) :
    lacksTerms (first ++ second) = lacksTerms second := by
  induction first with
  | nil => rfl
  | cons lexeme first ih =>
      rw [List.any_cons, Bool.or_eq_false_iff] at other
      rw [List.cons_append, ← ih other.2]
      cases lexeme with
      | word letters =>
          have different : letters ≠ "ORDER" := by simpa [Lexeme.isOrder] using other.1
          rw [lacksTerms] <;> simp [different]
      | text | name | symbol => rfl

theorem Limits.any_isOrder {limit offset : Option Nat} {front back : List Lexeme}
    (limits : Limits limit offset front back) :
    front.any Lexeme.isOrder = false ∧ back.any Lexeme.isOrder = false := by
  have number (n : Nat) : (Lexeme.word (natText n)).isOrder = false :=
    isOrder_of_isFigure (BuiltinDialect.isFigure_of_isWordy (.digits n))
  cases limits with
  | unlimited sign offset among figure =>
      have signs : ∀ sign ∈ [[], [Lexeme.symbol '-']], sign.any Lexeme.isOrder = false := by decide
      refine ⟨rfl, ?_⟩
      simp only [List.any_append, List.any_cons, List.any_nil, signs sign among,
        isOrder_of_isFigure figure, number]
      rfl
  | none | top | limit | limitOffset | offset =>
      constructor <;> simp only [List.any_cons, List.any_nil, number] <;> rfl

theorem lacksTerms_iff {shape : SelectShape} {lexemes : List Lexeme}
    (statement : SelectStatement False shape lexemes) :
    lacksTerms lexemes = true ↔ shape.order = some 0 := by
  obtain ⟨rfl, limits, fields, source, condition, groups, order⟩ := statement
  obtain ⟨frontOther, backOther⟩ := limits.any_isOrder
  have distinct : List.any (if shape.distinct then [Lexeme.word "DISTINCT"] else [])
      Lexeme.isOrder = false := by
    cases shape.distinct <;> rfl
  -- up to the order
  rw [← List.singleton_append, lacksTerms_append rfl, lacksTerms_append distinct,
    lacksTerms_append frontOther,
    lacksTerms_append (fields.any_isOrder fun _ => FieldPhrase.any_isOrder),
    ← List.singleton_append, lacksTerms_append rfl, lacksTerms_append source.any_isOrder,
    lacksTerms_append condition.any_isOrder, lacksTerms_append groups.any_isOrder]
  generalize shape.order = sorted at order
  cases order with
  | none =>
      have nothing := @lacksTerms_append _ [] backOther
      rw [List.append_nil] at nothing
      simp [nothing, lacksTerms]
  | @terms n terms listed =>
      by_cases present : n = 0
      · obtain rfl := (listed.eq_nil_iff fun _ => SortPhrase.ne_nil).2 present
        rcases limits.back_cases with rfl | ⟨rest, rfl⟩ | ⟨rest, rfl⟩ <;>
          simp [lacksTerms, present]
      · obtain ⟨first, rest, rfl, inner⟩ :=
          listed.exists_inner (fun _ => SortPhrase.exists_inner) present
        have other := ne_of_isInner inner
        simp only [clauseWords, List.mem_cons, List.not_mem_nil, or_false, forall_eq_or_imp,
          forall_eq] at other
        obtain ⟨-, -, -, noLimit, noOffset⟩ := other
        refine iff_of_false (fun lacks => ?_) (by simpa using present)
        unfold lacksTerms at lacks
        split at lacks <;> simp_all

/-- However a statement is read, it has the same lists without members. -/
theorem SelectStatement.isFull_iff {shape other : SelectShape} {lexemes : List Lexeme}
    (statement : SelectStatement False shape lexemes)
    (again : SelectStatement False other lexemes) : shape.IsFull ↔ other.IsFull := by
  unfold SelectShape.IsFull
  rw [ne_eq, ne_eq, ne_eq, ne_eq, ← lacksFields_iff statement, ← lacksFields_iff again,
    ← lacksTerms_iff statement, ← lacksTerms_iff again]

end RowQuery.Sql
