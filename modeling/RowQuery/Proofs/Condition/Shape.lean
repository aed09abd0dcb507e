import RowQuery.Compile
import RowQuery.Proofs.Truth

/-!
# The shape of compiled conditions

A compiled condition is a tree of AND, OR and NOT over sentinels and over the SQL
of leaves.  This file computes the tree along with the SQL: `summary_compile` says
that the tree is written exactly as the compiler writes the condition, and that it
is exact when the condition is.
-/

namespace RowQuery

/-- The connectives of a compiled condition. -/
inductive Shape where
  /-- A condition of known value under the text that stands for it. -/
  | known (value : Bool) (sql : String)
  /-- The SQL of a term that is no connective. -/
  | leaf (t : Term) (sql : String)
  | not (inner : Shape)
  | all (parts : List Shape)
  | any (parts : List Shape)

namespace Shape

/-- A single part stands for itself; several are joined inside brackets. -/
def joined (keyword : String) : List String → String
  | [text] => text
  | texts => Text.bracketed (Text.join keyword texts)

mutual

/-- The SQL of a shape. -/
def text : Shape → String
  | known _ sql => sql
  | leaf _ sql => sql
  | not inner => "NOT " ++ Text.bracketed (text inner)
  | all parts => joined " AND " (texts parts)
  | any parts => joined " OR " (texts parts)

/-- The SQL of several shapes. -/
def texts : List Shape → List String
  | [] => []
  | part :: parts => text part :: texts parts

end

theorem texts_eq_map (parts : List Shape) : texts parts = parts.map text := by
  induction parts with
  | nil => rfl
  | cons part parts ih => simp [texts, ih]

mutual

/-- The truth value of a shape when its leaves are read in a given way. -/
def read (leaves : Term → Truth) : Shape → Truth
  | known value _ => some value
  | leaf t _ => leaves t
  | not inner => (read leaves inner).not
  | all parts => Truth.all (reads leaves parts)
  | any parts => Truth.any (reads leaves parts)

/-- The truth values of several shapes. -/
def reads (leaves : Term → Truth) : List Shape → List Truth
  | [] => []
  | part :: parts => read leaves part :: reads leaves parts

end

/-- The value of a condition that is known beforehand. -/
def value? : Shape → Option Bool
  | known value _ => some value
  | _ => none

/-- The sentinel of a truth value. -/
def sentinel (dialect : Dialect) (value : Bool) : Shape :=
  known value (dialect.truthClause value)

/-- The negation of a shape; that of a known value is known. -/
def negated (dialect : Dialect) (shape : Shape) : Shape :=
  match shape.value? with
  | some value => sentinel dialect !value
  | none => not shape

/-- A junction; without parts it is known. -/
def junction (dialect : Dialect) (conjunction : Bool) (parts : List Shape) : Shape :=
  match parts with
  | [] => sentinel dialect conjunction
  | _ => if conjunction then all parts else any parts

end Shape

/-- A shape, and whether it agrees with its term on every row. -/
abbrev ShapeOf := Shape × Bool

namespace ShapeOf

/-- What a shape has in common with a piece: the text, the exactness and the known
value. -/
def summary (shape : ShapeOf) : String × Bool × Option Bool :=
  (shape.1.text, shape.2, shape.1.value?)

/-- In place of a part without SQL form stands TRUE. -/
def weakened (dialect : Dialect) : Walk ShapeOf → Walk ShapeOf
  | .error .noForm => .ok (Shape.sentinel dialect true, false)
  | shape => shape

end ShapeOf

namespace Piece

/-- The text, the exactness and the known value of a piece. -/
def summary (p : Piece) : String × Bool × Option Bool :=
  (p.fragment.sql, p.exact, p.fragment.constant.map Value.truthy)

/-- The shape of the condition that a term other than a connective compiles to. -/
def leafShape (t : Term) (p : Piece) : ShapeOf :=
  match p.fragment.constant with
  | some value => (.known value.truthy p.fragment.sql, p.exact)
  | none => (.leaf t p.fragment.sql, p.exact)

theorem summary_leafShape (t : Term) (p : Piece) : (p.leafShape t).summary = p.summary := by
  unfold leafShape summary
  split <;> simp_all [ShapeOf.summary, Shape.text, Shape.value?]

end Piece

namespace Term

/-- The condition of a term that is no connective. -/
def leafCondition (c : CompileContext) (params : List String) (t : Term) : Walk ShapeOf := do
  let piece ← t.compile c params >>= c.asCondition
  .ok (piece.leafShape t)

mutual

/-- The shape of the condition that a term compiles to. -/
def shape (c : CompileContext) (params : List String) : Term → Walk ShapeOf
  | all items => do
      let parts ← shapes c params items
      let _ ← c.truthType
      .ok (.junction c.dialect true (parts.map Prod.fst), parts.all Prod.snd)
  | any items => do
      let parts ← shapes c params items
      let _ ← c.truthType
      .ok (.junction c.dialect false (parts.map Prod.fst), parts.all Prod.snd)
  | not inner => do
      let (shape, exact) ← shape c params inner
      if exact then do
        let _ ← c.truthType
        .ok (shape.negated c.dialect, true)
      else .error .noForm
  | named inner _ => shape c params inner
  | t => t.leafCondition c params

/-- The shapes of the parts of a junction. -/
def shapes (c : CompileContext) (params : List String) : List Term → Walk (List ShapeOf)
  | [] => .ok []
  | item :: items => do
      let part ← ShapeOf.weakened c.dialect (shape c params item)
      let parts ← shapes c params items
      .ok (part :: parts)

end

mutual

/-- The terms that the connectives of a term join. -/
def leaves : Term → List Term
  | all items | any items => leavesOfAll items
  | not inner | named inner _ => leaves inner
  | t => [t]

/-- The terms that the connectives of several terms join. -/
def leavesOfAll : List Term → List Term
  | [] => []
  | item :: items => leaves item ++ leavesOfAll items

end

end Term

namespace CompileContext

variable (c : CompileContext)

/-- A name for the output column changes nothing about a condition. -/
theorem summary_asCondition_named (p : Piece) (name : String) :
    (c.asCondition { p with fragment := p.fragment.named name }).map Piece.summary =
      (c.asCondition p).map Piece.summary := by
  unfold asCondition
  cases p.condition <;> rfl

theorem summary_truth (value : Bool) :
    (c.truth value >>= c.asCondition).map Piece.summary =
      c.truthType.map fun _ => ShapeOf.summary (.sentinel c.dialect value, true) := by
  unfold truth
  cases c.truthType <;> rfl

theorem summary_test (sql : String) (aggregate exact : Bool) :
    (c.test sql aggregate exact >>= c.asCondition).map Piece.summary =
      c.truthType.map fun _ => (sql, exact, none) := by
  unfold test
  cases c.truthType <;> rfl

/-- The summary of a part, present or not. -/
def partSummary (part : Option Piece) : String × Bool × Option Bool :=
  match part with
  | some p => p.summary
  | none => (ShapeOf.summary (.sentinel c.dialect true, false))

theorem partText_eq : c.partText = fun part => (c.partSummary part).1 := by
  funext part
  cases part <;> rfl

theorem any_exact_eq (part : Option Piece) : part.any Piece.exact = (c.partSummary part).2.1 := by
  cases part <;> rfl

theorem summary_junction {parts : List (Option Piece)} {shapes : List ShapeOf}
    (same : parts.map c.partSummary = shapes.map ShapeOf.summary) (conjunction : Bool) :
    (c.junction parts conjunction >>= c.asCondition).map Piece.summary =
      c.truthType.map fun _ =>
        ShapeOf.summary
          (.junction c.dialect conjunction (shapes.map Prod.fst), shapes.all Prod.snd) := by
  have texts : parts.map c.partText = Shape.texts (shapes.map Prod.fst) := by
    have firsts := congrArg (List.map Prod.fst) same
    rw [Shape.texts_eq_map]
    simpa [Function.comp_def, partText_eq, ShapeOf.summary] using firsts
  have exactness : (parts.all fun part => part.any Piece.exact) = shapes.all Prod.snd := by
    have seconds := congrArg (List.all · fun summary => summary.2.1) same
    simpa [List.all_map, Function.comp_def, any_exact_eq c, ShapeOf.summary] using seconds
  cases parts with
  | nil =>
      obtain rfl : shapes = [] := by simpa using same.symm
      exact c.summary_truth conjunction
  | cons part parts =>
      cases shapes with
      | nil => simp at same
      | cons shape shapes =>
          simp only [junction, summary_test, texts, exactness]
          cases shapes <;> cases conjunction <;> rfl

theorem summary_negation {p : Piece} {shape : Shape}
    (same : p.summary = ShapeOf.summary (shape, true)) :
    (c.negation p >>= c.asCondition).map Piece.summary =
      c.truthType.map fun _ => ShapeOf.summary (shape.negated c.dialect, true) := by
  obtain ⟨text, -, value⟩ := by
    simpa only [Piece.summary, ShapeOf.summary, Prod.mk.injEq] using same
  unfold negation Shape.negated
  cases known : p.fragment.constant with
  | some v =>
      rw [known, Option.map_some] at value
      rw [← value]
      exact c.summary_truth _
  | none =>
      rw [known, Option.map_none] at value
      rw [← value]
      simp only [summary_test, text]
      rfl

/-- A junction of conditions none of which is missing. -/
theorem junction_some (p : Piece) (ps : List Piece)
    (conjunction : Bool) :
    c.junction ((p :: ps).map some) conjunction =
      c.test
        (Shape.joined (if conjunction then " AND " else " OR ")
          ((p :: ps).map fun p => p.fragment.sql))
        ((p :: ps).any fun p => p.fragment.aggregate) ((p :: ps).all Piece.exact) := by
  have texts : ((p :: ps).map some).map c.partText = (p :: ps).map fun p => p.fragment.sql := by
    rw [List.map_map]
    rfl
  rw [junction]
  · rw [texts, List.any_map, List.all_map]
    cases ps <;> rfl
  · simp

end CompileContext

namespace Walk

theorem map_bind {α β γ : Type} (f : β → γ) (step : Walk α) (rest : α → Walk β) :
    (step >>= rest).map f = step >>= fun a => (rest a).map f := by
  cases step <;> rfl

/-- Steps that look the same go on in the same way. -/
theorem bind_congr_of_map {α β γ δ : Type} {f : α → γ} {g : β → γ} {first : Walk α}
    {second : Walk β} (same : first.map f = second.map g) {rest : α → Walk δ}
    {rest' : β → Walk δ} (goOn : ∀ a b, f a = g b → rest a = rest' b) :
    first >>= rest = second >>= rest' := by
  cases first <;> cases second <;>
    simp only [Except.map, Except.error.injEq, Except.ok.injEq, reduceCtorEq] at same
  · rw [same]
    rfl
  · exact goOn _ _ same

end Walk

namespace Term

variable (c : CompileContext) (params : List String)

theorem summary_leafCondition (t : Term) :
    (t.compile c params >>= c.asCondition).map Piece.summary =
      (t.leafCondition c params).map ShapeOf.summary := by
  unfold leafCondition
  cases t.compile c params >>= c.asCondition with
  | error obstacle => rfl
  | ok piece => exact congrArg Except.ok (piece.summary_leafShape t).symm

/-- One more part in front leaves the summaries of the parts alike. -/
theorem map_cons_parts {part : Option Piece} {shape : ShapeOf}
    {parts : Walk (List (Option Piece))} {shapes : Walk (List ShapeOf)}
    (head : c.partSummary part = shape.summary)
    (tail : parts.map (List.map c.partSummary) = shapes.map (List.map ShapeOf.summary)) :
    (parts >>= fun parts => .ok (part :: parts)).map (List.map c.partSummary) =
      (shapes >>= fun shapes => .ok (shape :: shapes)).map (List.map ShapeOf.summary) := by
  simp only [Walk.map_bind]
  refine Walk.bind_congr_of_map tail fun parts shapes same => ?_
  simp only [Except.map, List.map_cons, head, same]

mutual

/-- The shape of a term is the condition that it compiles to: it has the same text
and the same exactness, and the same value where that is known. -/
theorem summary_compile : ∀ t : Term,
    (t.compile c params >>= c.asCondition).map Piece.summary =
      (t.shape c params).map ShapeOf.summary
  | all items => by
      simp only [compile, shape, bind_assoc, Walk.map_bind]
      refine Walk.bind_congr_of_map (summary_compileParts items) fun parts shapes same => ?_
      rw [← Walk.map_bind, c.summary_junction same]
      cases c.truthType <;> rfl
  | any items => by
      simp only [compile, shape, bind_assoc, Walk.map_bind]
      refine Walk.bind_congr_of_map (summary_compileParts items) fun parts shapes same => ?_
      rw [← Walk.map_bind, c.summary_junction same]
      cases c.truthType <;> rfl
  | not inner => by
      simp only [compile, shape, bind_assoc, Walk.map_bind]
      refine (bind_assoc _ _ _).symm.trans ?_
      refine Walk.bind_congr_of_map (summary_compile inner) fun piece shape same => ?_
      obtain ⟨shape, exact⟩ := shape
      have exactness : piece.exact = exact := congrArg (fun summary => summary.2.1) same
      cases exact with
      | false =>
          simp only [Piece.exactly, exactness]
          rfl
      | true =>
          have negated := c.summary_negation same
          rw [Walk.map_bind] at negated
          simp only [Piece.exactly, exactness, if_true]
          refine Eq.trans negated ?_
          cases c.truthType <;> rfl
  | named inner name => by
      have same := summary_compile inner
      simp only [compile, shape, bind_assoc, Walk.map_bind]
      rw [← same, Walk.map_bind]
      congr 1
      funext piece
      exact c.summary_asCondition_named piece name
  | param _ | field _ _ | constant _ | argument _ | subscript _ _ | tuple _ | call _ _
  | method _ _ _ | compare _ _ _ | member _ _ _ | arithmetic _ _ _ | negate _ =>
      summary_leafCondition c params _

theorem summary_compileParts : ∀ items : List Term,
    (compileParts c params items).map (List.map c.partSummary) =
      (shapes c params items).map (List.map ShapeOf.summary)
  | [] => rfl
  | item :: items => by
      have head := summary_compile item
      have tail := summary_compileParts items
      simp only [compileParts, shapes]
      cases compiled : item.compile c params >>= c.asCondition with
      | error obstacle =>
          cases shaped : item.shape c params with
          | ok shape => simp [compiled, shaped, Except.map] at head
          | error obstacle' =>
              simp only [compiled, shaped, Except.map, Except.error.injEq] at head
              subst head
              cases obstacle with
              | fault cause => rfl
              | noForm => exact map_cons_parts c rfl tail
      | ok piece =>
          cases shaped : item.shape c params with
          | error obstacle => simp [compiled, shaped, Except.map] at head
          | ok shape =>
              simp only [compiled, shaped, Except.map, Except.ok.injEq] at head
              exact map_cons_parts c head tail

end

end Term

end RowQuery
