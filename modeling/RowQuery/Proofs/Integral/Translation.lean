import RowQuery.Proofs.Condition.Shape
import RowQuery.Proofs.Integral.Membership
import RowQuery.Proofs.Integral.Term

/-!
# The translation of terms on integers and truth values

Exact SQL for a term on integers and truth values keeps its meaning: the text parses by
the precedence of SQL, and the expression that is read is true on exactly those rows on
which the term is.
-/

namespace RowQuery

open RowQuery.Number RowQuery.Sql

namespace Piece

variable {c : CompileContext} {mark : Char} {n : Bool} {t : Term} {p q : Piece}

/-- The condition that always or never holds. -/
theorem Judges.of_truth (usual : c.dialect.Usual mark) {b : Bool} (compiled : c.truth b = .ok q)
    (value : ∀ {scope v}, scope.arguments = c.arguments → t.eval scope = .ok v →
      v.truth = some b) : q.Judges c mark t := by
  obtain ⟨type, rfl⟩ := CompileContext.truth_eq_ok compiled
  obtain ⟨e, reads, shown⟩ := usual.truthClause b
  refine ⟨fun {w} constant {scope v} arguments evaluated => ?_, e, reads.mono conditionPower_le, ?_⟩
  · obtain rfl := Option.some.inj constant
    exact value arguments evaluated
  · intro scope env v mirrors evaluated
    rw [shown, value mirrors.arguments evaluated]
    rfl

/-- A column of truth values is compared with TRUE. -/
theorem Judges.of_flag (usual : c.dialect.Usual mark) (kind : p.fragment.kind = .bool)
    (typed : t.Typed c .bool) {e : Expression}
    (reads : Reads mark operandPower p.fragment.sql e) (denotes : e.Denotes c t) {text : String}
    (encoded : p.fragment.encode c.dialect (.bool true) = .ok text) {aggregate exact : Bool}
    (compiled : c.test (c.dialect.compare p.fragment.sql .eq text) aggregate exact = .ok q) :
    q.Judges c mark t := by
  obtain ⟨type, rfl⟩ := CompileContext.test_eq_ok compiled
  have same : (Value.bool true).kind = p.fragment.kind := kind.symm
  obtain ⟨one, readsOne, shown⟩ := Fragment.shows_encode usual rfl same encoded
  refine ⟨fun constant => (by cases constant), .compare e .eq one, ?_, ?_⟩
  · rw [usual.compare]
    exact (Reads.operation usual.isMark (.compare .eq) (reads.mono comparisonPower_le)
      (readsOne.mono comparisonPower_lt)).mono conditionPower_le
  · intro scope env v mirrors evaluated
    rw [Expression.eval, denotes _ _ _ mirrors evaluated, shown]
    rcases typed _ _ _ mirrors evaluated with rfl | bool
    · rfl
    · cases v with
      | bool b => cases b <;> rfl
      | _ => cases bool

theorem Means.judges (usual : c.dialect.Usual mark) (means : p.Means c mark false t)
    (compiled : c.asCondition p = .ok q) : q.Judges c mark t := by
  unfold CompileContext.asCondition at compiled
  cases means with
  | null literal allowed => cases allowed
  | @known w literal integral regular value =>
      have truthy : ∀ {scope v}, scope.arguments = c.arguments → t.eval scope = .ok v →
          v.truth = some w.truthy := by
        intro scope v arguments evaluated
        rw [value arguments evaluated,
          Value.truth_of_not_isNull (Value.isNull_of_integral integral)]
      cases w with
      | int i =>
          obtain ⟨sql, type, -, rfl⟩ := CompileContext.literal_int_eq_ok literal
          exact .of_truth usual compiled truthy
      | bool b =>
          obtain ⟨type, rfl⟩ := CompileContext.truth_eq_ok literal
          obtain rfl := Except.ok.inj compiled
          exact .of_truth usual literal truthy
      | _ => cases integral
  | @unknown e constant regular kind typed denotes reads unsigned condition =>
      split at compiled
      · rename_i holds
        obtain rfl := Except.ok.inj compiled
        obtain ⟨bool, reads⟩ := condition holds
        rw [bool] at typed
        refine ⟨fun known => ?_, e, reads, denotes.decides typed⟩
        rw [constant] at known
        cases known
      · rename_i noCondition
        simp only [constant] at compiled
        split at compiled
        · rename_i bool
          obtain ⟨text, textEq, compiled⟩ := Except.bind_eq_ok_iff.1 compiled
          rw [CompileContext.operand_of_not_condition (Bool.eq_false_iff.2 noCondition) constant]
            at reads
          exact .of_flag usual bool (bool ▸ typed) (reads.mono (by decide)) denotes
            (Walk.ofOutcome_eq_ok_iff.1 textEq) compiled
        · cases compiled

theorem Judges.negation (usual : c.dialect.Usual mark) (judges : p.Judges c mark t)
    (regular : (Term.not t).Regular c) (compiled : c.negation p = .ok q) :
    q.Means c mark n (.not t) := by
  unfold CompileContext.negation at compiled
  split at compiled
  · rename_i w constant
    refine .of_truth compiled regular fun arguments evaluated => ?_
    rw [Term.eval] at evaluated
    obtain ⟨x, innerEq, ended⟩ := Except.bind_eq_ok_iff.1 evaluated
    obtain rfl := Except.ok.inj ended
    rw [Value.negation_eq_ofTruth, judges.known constant arguments innerEq]
    rfl
  · obtain ⟨e, reads, decides⟩ := judges.written
    exact .of_test usual compiled regular Term.typed_not (reads.not usual.isMark (by decide))
      decides.not

/-- The text of a junction. -/
theorem Judges.reads_joined (isMark : Lexer.IsMark mark) (op : Operator) {keyword : String}
    (spelled : keyword = " " ++ op.text ++ " ") (weak : op.power < conditionPower)
    {text : String} {texts : List String} {e : Expression} {es : List Expression}
    (first : Reads mark conditionPower text e)
    (each : List.Forall₂ (Reads mark conditionPower) texts es) :
    Reads mark conditionPower (Shape.joined keyword (text :: texts)) (es.foldl op.apply e) := by
  subst spelled
  cases each with
  | nil => exact first
  | @cons text' e' texts es head tail =>
      have stronger : List.Forall₂ (Reads mark (op.power + 1)) (text' :: texts) (e' :: es) :=
        (List.Forall₂.cons head tail).imp fun _ _ reads => reads.mono weak
      exact (Reads.chain isMark op stronger (first.mono (Nat.le_of_lt weak))).bracketed isMark
        op.power_pos _

/-- The expressions of conditions. -/
theorem Judges.exists_expressions {ts : List Term} {ps : List Piece}
    (each : List.Forall₂ (fun t p => Piece.Judges c mark t p) ts ps) :
    ∃ es, List.Forall₂ (Reads mark conditionPower) (ps.map fun p => p.fragment.sql) es ∧
      List.Forall₂ (fun t e => Expression.Decides c e t) ts es := by
  induction each with
  | nil => exact ⟨[], .nil, .nil⟩
  | cons head _ ih =>
      obtain ⟨e, reads, decides⟩ := head.written
      obtain ⟨es, readsEach, decidesEach⟩ := ih
      exact ⟨e :: es, .cons reads readsEach, .cons decides decidesEach⟩

/-- A conjunction or disjunction with all its parts. -/
theorem Judges.junction (usual : c.dialect.Usual mark) {ts : List Term} {ps : List Piece}
    (each : List.Forall₂ (fun t p => Piece.Judges c mark t p) ts ps) (conjunction : Bool)
    (regular : (if conjunction then Term.all ts else Term.any ts).Regular c)
    (compiled : c.junction (ps.map some) conjunction = .ok q) :
    q.Means c mark n (if conjunction then .all ts else .any ts) := by
  obtain ⟨es, reads, decides⟩ := exists_expressions each
  cases each with
  | nil =>
      cases conjunction with
      | true =>
          refine .of_truth compiled regular fun arguments evaluated => ?_
          rw [if_pos rfl, Term.eval, Term.evalAll] at evaluated
          exact (Except.ok.inj evaluated).symm
      | false =>
          refine .of_truth compiled regular fun arguments evaluated => ?_
          rw [if_neg Bool.false_ne_true, Term.eval, Term.evalAny] at evaluated
          exact (Except.ok.inj evaluated).symm
  | @cons t p ts ps _ _ =>
      rw [CompileContext.junction_some] at compiled
      cases reads with
      | @cons _ e _ es readsFirst readsEach =>
          cases decides with
          | cons decidesFirst decidesEach =>
              cases conjunction with
              | true =>
                  have joined := reads_joined usual.isMark .and rfl (by decide) readsFirst readsEach
                  exact .of_test usual compiled regular (Term.typed_all _) joined
                    (decidesFirst.all decidesEach)
              | false =>
                  have joined := reads_joined usual.isMark .or rfl (by decide) readsFirst readsEach
                  exact .of_test usual compiled regular (Term.typed_any _) joined
                    (decidesFirst.any decidesEach)

/-- A column. -/
theorem Means.column (usual : c.dialect.Usual mark) (quotes : c.QuotesColumns) {i : Nat}
    {key : String} {b : Binding} {column : Column} (bound : c.bindings[i]? = some b)
    (found : b.table.column? key = some column) (kind : column.kind.isIntegral = true)
    (compiled : c.column i key = .ok p) : p.Means c mark n (.field (.param i) key) := by
  have regular : (Term.field (.param i) key).Regular c :=
    (Term.Integral.column bound found kind).regular
  have quoted : column.quotedName = enclose mark column.name := by
    rw [quotes b (List.mem_of_getElem? bound) column (List.mem_of_find?_eq_some found),
      usual.quoteName]
  simp only [CompileContext.column, bound, Table.lookup, found] at compiled
  obtain rfl := Except.ok.inj compiled
  have written : ∀ {sql : String}, sql = (if c.bindings.length > 1 then
      c.dialect.quoteName b.label ++ "." ++ column.quotedName else column.quotedName) →
      Reads mark atomPower sql (.column (c.columnPath b column)) ∧ Unsigned sql := by
    rintro sql rfl
    rw [CompileContext.columnPath, quoted, usual.quoteName]
    split
    · refine ⟨.qualified usual.isMark _ _, ?_⟩
      rw [String.append_assoc]
      exact unsigned_enclose usual.isMark _ _
    · refine ⟨.name usual.isMark _, ?_⟩
      rw [← String.append_empty (s := enclose mark column.name)]
      exact unsigned_enclose usual.isMark _ _
  obtain ⟨reads, unsigned⟩ := written rfl
  refine .unknown rfl regular kind ?_ ?_ reads unsigned fun condition => by cases condition
  · intro scope env v mirrors evaluated
    rw [Term.eval] at evaluated
    exact mirrors.typed bound found kind evaluated
  · intro scope env v mirrors evaluated
    rw [Term.eval] at evaluated
    exact mirrors.cells bound found kind evaluated

/-- Only a complete junction is exact. -/
theorem complete_of_junction {parts : List (Option Piece)} {conjunction : Bool}
    (compiled : c.junction parts conjunction = .ok p)
    (exactness : p.condition = true → p.exact = true) :
    (parts.all fun part => part.any Piece.exact) = true := by
  cases parts with
  | nil => rfl
  | cons part parts =>
      obtain ⟨type, rfl⟩ := CompileContext.test_eq_ok compiled
      exact exactness rfl

end Piece

namespace Term

variable {c : CompileContext} {mark : Char} {n : Bool} {t : Term} {params : List String}

theorem Literal.compile_eq {v : Value} (literal : Literal c t v) :
    t.compile c params = c.literal v := by
  cases literal with
  | constant => rw [compile]
  | argument given =>
      rw [compile, argumentValue, given]
      rfl

theorem allKnown_constants (values : List Value) : AllKnown c (values.map constant) values := by
  rw [AllKnown, List.forall₂_map_left_iff, List.forall₂_same]
  intro w _ scope v _ evaluated
  rw [eval] at evaluated
  obtain rfl := Except.ok.inj evaluated
  exact ⟨rfl, Bool.and_false _⟩

/-- The pieces of a term have its meaning if they are exact where they are conditions. -/
def Compiles (c : CompileContext) (params : List String) (mark : Char) (n : Bool) (t : Term) :
    Prop :=
  ∀ p, t.compile c params = .ok p → (p.condition = true → p.exact = true) →
    p.Means c mark n t

/-- A condition has the meaning of its term if the piece before it has. -/
theorem judges_of_means (usual : c.dialect.Usual mark) {q : Piece}
    (means : t.Compiles c params mark false)
    (compiled : t.compile c params >>= c.asCondition = .ok q) (exactness : q.exact = true) :
    q.Judges c mark t := by
  obtain ⟨p, pieceEq, conditionEq⟩ := Except.bind_eq_ok_iff.1 compiled
  refine (means p pieceEq fun condition => ?_).judges usual conditionEq
  rw [CompileContext.asCondition, if_pos condition] at conditionEq
  obtain rfl := Except.ok.inj conditionEq
  exact exactness

/-- A membership test in a tuple. -/
theorem compiles_tuple (usual : c.dialect.Usual mark) {item : Term} {members : List Term}
    {negated : Bool} (nonempty : members ≠ []) (operand : item.Compiles c params mark true)
    (each : ∀ t ∈ members, t.Compiles c params mark true)
    (regular : (member item (tuple members) negated).Regular c) :
    (member item (tuple members) negated).Compiles c params mark n := by
  intro p compiled _
  rw [compile] at compiled
  obtain ⟨q, itemEq, compiled⟩ := Except.bind_eq_ok_iff.1 compiled
  obtain ⟨ps, piecesEq, compiled⟩ := Except.bind_eq_ok_iff.1 compiled
  obtain ⟨itemEq, exactness⟩ := compile_exactly_eq_ok_iff.1 itemEq
  have item := operand q itemEq fun _ => exactness
  have pieces : List.Forall₂ (fun t p => Piece.Means c mark true t p) members ps :=
    (compileItems_eq_ok_iff.1 piecesEq).imp_of_mem fun t member p compiled =>
      each t member p compiled.1 fun _ => compiled.2
  split at compiled
  · rename_i values constants
    obtain ⟨whole, wholeEq, compiled⟩ := Except.bind_eq_ok_iff.1 compiled
    obtain ⟨literals, known⟩ := Piece.Means.literals_of_constants pieces constants
    refine .contains usual item (.tuple members) nonempty
      (CompileContext.constant_of_literal wholeEq).1 known (fun {ps'} same => ?_) regular compiled
    rw [literals] at same
    exact Except.ok.inj same ▸ pieces
  · rename_i unfolded
    exact .member usual item pieces (.tuple members) nonempty regular
      (.inr (List.exists_of_mapM_eq_none unfolded)) compiled

/-- A membership test in a constant list. -/
theorem compiles_values (usual : c.dialect.Usual mark) {item collection : Term}
    {values : List Value} {negated : Bool} (literal : Literal c collection (.list values))
    (nonempty : values.map constant ≠ []) (operand : item.Compiles c params mark true)
    (each : ∀ t ∈ values.map constant, t.Compiles c params mark true)
    (regular : (member item collection negated).Regular c) :
    (member item collection negated).Compiles c params mark n := by
  intro p compiled _
  have compiled : (do
      let needle ← item.compile c params >>= Piece.exactly
      let whole ← collection.compile c params >>= Piece.exactly
      c.contains needle whole negated) = .ok p := by
    cases literal <;> exact compiled
  obtain ⟨q, whole, ⟨itemEq, exactness⟩, ⟨wholeEq, -⟩, compiled⟩ := compile_pair_eq_ok compiled
  rw [literal.compile_eq] at wholeEq
  refine .contains usual (operand q itemEq fun _ => exactness) (.values literal) nonempty
    (CompileContext.constant_of_literal wholeEq).1 (allKnown_constants values)
    (fun {ps} literals => ?_) regular compiled
  rw [List.forall₂_map_left_iff]
  refine (Except.mapM_eq_ok_iff.1 literals).imp_of_mem fun v member p compiled => ?_
  refine each (constant v) (List.mem_map_of_mem member) p ?_ fun _ => ?_
  · rwa [compile]
  · exact (CompileContext.constant_of_literal compiled).2.2

/-- A conjunction or disjunction. -/
theorem compiles_junction (usual : c.dialect.Usual mark) {items : List Term} (conjunction : Bool)
    (each : ∀ t ∈ items, t.Compiles c params mark false)
    (regular : (if conjunction then all items else any items).Regular c) :
    (if conjunction then all items else any items).Compiles c params mark n := by
  intro p compiled exactness
  have compiled : (do
      let parts ← compileParts c params items
      c.junction parts conjunction) = .ok p := by
    cases conjunction <;> exact compiled
  obtain ⟨parts, partsEq, compiled⟩ := Except.bind_eq_ok_iff.1 compiled
  obtain ⟨pieces, rfl, piecesEq⟩ :=
    compileParts_of_present partsEq (Piece.complete_of_junction compiled exactness)
  refine Piece.Judges.junction usual (piecesEq.imp_of_mem fun t member p compiled => ?_)
    conjunction regular compiled
  exact judges_of_means usual (each t member) compiled.1 compiled.2

/-- An exact piece for a term on integers and truth values has its meaning. -/
theorem Integral.compiles (usual : c.dialect.Usual mark) (quotes : c.QuotesColumns)
    (integral : Integral c n t) : t.Compiles c params mark n := by
  induction integral with
  | null literal =>
      intro p compiled _
      rw [literal.compile_eq] at compiled
      exact .null compiled rfl literal
  | literal literal kind =>
      intro p compiled _
      rw [literal.compile_eq] at compiled
      refine .known compiled kind (Integral.literal literal kind).regular ?_
      intro scope v arguments evaluated
      rw [literal.eval_eq arguments] at evaluated
      exact (Except.ok.inj evaluated).symm
  | column bound found kind =>
      intro p compiled _
      rw [compile] at compiled
      exact .column usual quotes bound found kind compiled
  | arithmetic noQuotient left right meansLeft meansRight =>
      intro p compiled _
      rw [compile] at compiled
      obtain ⟨q, q', leftEq, rightEq, compiled⟩ := compile_pair_eq_ok compiled
      exact .arithmetic usual noQuotient (meansLeft q leftEq.1 fun _ => leftEq.2)
        (meansRight q' rightEq.1 fun _ => rightEq.2)
        (Integral.arithmetic noQuotient left right).regular compiled
  | negate operand means =>
      intro p compiled _
      rw [compile] at compiled
      obtain ⟨q, innerEq, compiled⟩ := Except.bind_eq_ok_iff.1 compiled
      obtain ⟨innerEq, exactness⟩ := compile_exactly_eq_ok_iff.1 innerEq
      exact .negative usual (means q innerEq fun _ => exactness) (Integral.negate operand).regular
        compiled
  | compare left right meansLeft meansRight =>
      intro p compiled _
      rw [compile] at compiled
      obtain ⟨q, q', leftEq, rightEq, compiled⟩ := compile_pair_eq_ok compiled
      exact .compare usual (meansLeft q leftEq.1 fun _ => leftEq.2)
        (meansRight q' rightEq.1 fun _ => rightEq.2) (Integral.compare left right).regular compiled
  | @among n negated item collection members lists nonempty operand each means meansEach =>
      have regular : (member item collection negated).Regular c :=
        (Integral.among lists nonempty operand each).regular
      cases lists with
      | tuple => exact compiles_tuple usual nonempty means meansEach regular
      | values literal => exact compiles_values usual literal nonempty means meansEach regular
  | all each means => exact compiles_junction usual true means (Integral.all each).regular
  | any each means => exact compiles_junction usual false means (Integral.any each).regular
  | not operand means =>
      intro p compiled _
      rw [compile] at compiled
      obtain ⟨q, exactlyEq, compiled⟩ := Except.bind_eq_ok_iff.1 compiled
      obtain ⟨q', conditionEq, exactEq⟩ := Except.bind_eq_ok_iff.1 exactlyEq
      obtain ⟨rfl, exactness⟩ := Piece.exactly_eq_ok_iff.1 exactEq
      exact (judges_of_means usual means conditionEq exactness).negation usual
        (Integral.not operand).regular compiled

end Term

/-- The SQL of an exact restriction on integers and truth values parses by precedence, and
what is parsed holds on exactly those rows on which the expression is true. -/
theorem restrict_integral_holds_iff {d : BuiltinDialect} {c : CompileContext}
    (dialect : c.dialect = d.dialect) (quotes : c.QuotesColumns) {e : Lambda}
    (integral : e.body.Integral c false) {r : Rendering} (compiled : c.restrict e = .ok r)
    (exact : r.exact = true) :
    ∃ condition, Sql.parse d.mark r.fragment.sql = some condition ∧
      ∀ scope env v, c.Mirrors scope env → e.evaluate scope = .ok v →
        (condition.holds env ↔ v.truthy = true) := by
  have usual : c.dialect.Usual d.mark := dialect ▸ d.usual
  obtain ⟨_, -, compiled⟩ := Except.bind_eq_ok_iff.1 compiled
  split at compiled
  · rename_i piece pieceEq
    obtain rfl := Except.ok.inj compiled
    obtain ⟨condition, reads, decides⟩ :=
      (Term.judges_of_means usual (integral.compiles usual quotes) pieceEq exact).written
    refine ⟨condition, reads.parse_eq (by decide), fun scope env v mirrors evaluated => ?_⟩
    have bodyEq : e.body.eval scope = .ok v := by
      rw [Lambda.evaluate] at evaluated
      split at evaluated
      · exact evaluated
      · cases evaluated
    rw [Expression.holds, decides _ _ _ mirrors bodyEq, Number.truth_ofTruth,
      Value.truth_eq_true_iff]
  · cases compiled
  · split at compiled
    · obtain rfl := Except.ok.inj compiled
      cases exact
    · cases compiled

section Square

/-- A table with one column of integers. -/
def squareContext : CompileContext where
  dialect := .ansi
  functions := {}
  bindings := [.ofTable {
    name := "square", quotedName := "\"square\""
    columns := [{ key := "side", name := "side", quotedName := "\"side\"", kind := .int,
                  type := .integerOf "INTEGER" 4 }] }]

/-- The side of a square. -/
def squareSide : Term := .field (.param 0) "side"

/-- Squares without a side, and those whose area is not twice the side. -/
def unevenSquare : Lambda where
  params := ["x"]
  body := .any [
    .compare squareSide .eq (.constant .null),
    .not (.compare (.arithmetic squareSide .add squareSide) .eq
      (.arithmetic squareSide .mul squareSide))]
  bound := by decide

/-- The row of a square. -/
def squareOfThree : Scope :=
  { rows := [[("side", .int 3)]] }

theorem unevenSquare_integral : unevenSquare.body.Integral squareContext false := by
  have side : ∀ {n}, squareSide.Integral squareContext n := .column rfl rfl rfl
  have twice : ∀ {n}, Term.Integral squareContext n (.arithmetic squareSide .add squareSide) :=
    .arithmetic (by decide) side side
  have area : ∀ {n}, Term.Integral squareContext n (.arithmetic squareSide .mul squareSide) :=
    .arithmetic (by decide) side side
  refine .any fun t member => ?_
  simp only [List.mem_cons, List.not_mem_nil, or_false] at member
  rcases member with rfl | rfl
  · exact .compare side (.null (.constant .null))
  · exact .not (.compare twice area)

theorem squareContext_declared : ∀ b ∈ squareContext.bindings,
    b.table.Declared squareContext.dialect := by
  intro b member
  obtain rfl := List.mem_singleton.1 member
  refine ⟨fun column member => ?_, by decide, by decide⟩
  obtain rfl := List.mem_singleton.1 member
  rfl

theorem squareOfThree_typed {i : Nat} {key : String} {b : Binding} {column : Column} {v : Value}
    (bound : squareContext.bindings[i]? = some b) (found : b.table.column? key = some column)
    (_ : column.kind.isIntegral = true) (cell : squareOfThree.column i key = .ok v) :
    v = .null ∨ v.kind = column.kind := by
  obtain rfl := List.mem_singleton.1 (List.mem_of_getElem? bound)
  obtain rfl := List.mem_singleton.1 (Table.mem_of_column? found)
  obtain rfl : "side" = key := Table.key_of_column? found
  cases i with
  | zero =>
      obtain rfl : Value.int 3 = v := Except.ok.inj cell
      exact .inr rfl
  | succ i => cases bound

theorem restrict_unevenSquare :
    ∃ r condition env, squareContext.restrict unevenSquare = .ok r ∧
      r.fragment.sql =
        "(\"side\" IS NULL OR NOT ((\"side\" + \"side\") = (\"side\" * \"side\")))" ∧
      Sql.parse '"' r.fragment.sql = some condition ∧
      squareContext.Mirrors squareOfThree env ∧ condition.holds env := by
  obtain ⟨env, mirrors, -⟩ := squareContext.exists_mirrors squareContext_declared (by decide) rfl
    squareOfThree_typed fun _ => none
  obtain ⟨condition, parsed, holds⟩ := restrict_integral_holds_iff (d := .ansi) rfl
    (CompileContext.quotesColumns_of_declared squareContext_declared) unevenSquare_integral rfl rfl
  exact ⟨_, condition, env, rfl, rfl, parsed, mirrors,
    (holds squareOfThree env (.bool true) mirrors rfl).2 rfl⟩

end Square

end RowQuery
