import RowQuery.Dialect.Sqlite
import RowQuery.Proofs.Folding.Step

/-!
# Constants of terms

The compiler computes what it can of a term, and marks the piece with the result.  On every row the
term is evaluated to this constant, unless the term is misjudged.  What is misjudged is unknown on
the row, so nothing but NULL can tell a constant from a value.
-/

namespace RowQuery

open Value

namespace Term

open Piece CompileContext

variable {c : CompileContext} {params : List String} {scope : Scope}

/-- What one step of the compiler takes for the value of a term is its value, if this holds of what
the term is put together from and the term is not misjudged itself. -/
theorem marks_or_misjudged (arguments : scope.arguments = c.arguments)
    (functions : scope.functions = c.functions) (deterministic : c.functions.Deterministic)
    {t : Term} (each : ∀ s ∈ t.parts, s.Agrees c params scope) {p : Piece} {v : Value}
    (compiled : t.compile c params = .ok p) (ended : t.eval scope = .ok v) :
    p.Marks v ∨ t.Misjudged c params scope := by
  cases t with
  | param index => cases compiled
  | field target name => exact .inl (marks_of_field (each target (by simp [parts])) compiled ended)
  | constant value =>
      obtain rfl := Except.ok.inj ended
      exact .inl (marks_literal compiled)
  | argument name =>
      obtain ⟨k, known, written⟩ := folded_eq_ok compiled
      have ended : argumentValue scope.arguments name = .ok v := ended
      rw [arguments, known] at ended
      obtain rfl := Except.ok.inj ended
      exact .inl (marks_literal written)
  | subscript target key =>
      exact .inl (marks_of_subscript (each target (by simp [parts])) (each key (by simp [parts]))
        compiled ended)
  | tuple items => exact .inl (marks_of_tuple each compiled ended)
  | call name operands =>
      exact marks_or_misjudged_call functions deterministic each compiled ended
  | method target name operands =>
      exact marks_or_misjudged_method functions deterministic each compiled ended
  | compare l op r =>
      exact marks_or_misjudged_compare (each l (by simp [parts])) (each r (by simp [parts]))
        compiled ended
  | member item collection negated =>
      exact marks_or_misjudged_member (each item (by simp [parts]))
        (each collection (by simp [parts])) compiled ended
  | arithmetic l op r =>
      exact .inl (marks_of_arithmetic (each l (by simp [parts])) (each r (by simp [parts])) compiled
        ended)
  | all items =>
      left
      intro k known
      rw [compile] at compiled
      rw [eval] at ended
      obtain ⟨parts, partsEq, joined⟩ := Except.bind_eq_ok_iff.1 compiled
      obtain ⟨rfl, rfl⟩ := items_of_junction partsEq joined known
      exact (Except.ok.inj ended).symm
  | any items =>
      left
      intro k known
      rw [compile] at compiled
      rw [eval] at ended
      obtain ⟨parts, partsEq, joined⟩ := Except.bind_eq_ok_iff.1 compiled
      obtain ⟨rfl, rfl⟩ := items_of_junction partsEq joined known
      exact (Except.ok.inj ended).symm
  | not inner => exact marks_or_misjudged_not (each inner (by simp [parts])) compiled ended
  | negate inner => exact .inl (marks_of_negate (each inner (by simp [parts])) compiled ended)
  | named inner name =>
      rw [compile] at compiled
      rw [eval] at ended
      obtain ⟨piece, pieceEq, named⟩ := Except.bind_eq_ok_iff.1 compiled
      have marks := each inner (by simp [parts]) piece v pieceEq ended
      obtain rfl := Except.ok.inj named
      exact .inl marks

theorem sizeOf_lt_of_mem_parts {s t : Term} (among : s ∈ t.parts) : sizeOf s < sizeOf t := by
  cases t <;> simp only [parts, List.mem_cons, List.not_mem_nil, or_false] at among
  case field | not | negate | named =>
    subst among
    simp only [field.sizeOf_spec, not.sizeOf_spec, negate.sizeOf_spec, named.sizeOf_spec]
    omega
  case subscript | compare | member | arithmetic =>
    simp only [subscript.sizeOf_spec, compare.sizeOf_spec, member.sizeOf_spec,
      arithmetic.sizeOf_spec]
    rcases among with rfl | rfl <;> omega
  case tuple | call | all | any =>
    have := List.sizeOf_lt_of_mem among
    simp only [tuple.sizeOf_spec, call.sizeOf_spec, all.sizeOf_spec, any.sizeOf_spec]
    omega
  case method =>
    simp only [method.sizeOf_spec]
    rcases among with rfl | among
    · omega
    · have := List.sizeOf_lt_of_mem among
      omega

/-- A term agrees if neither it nor anything within it is misjudged. -/
theorem agrees_of_inside (arguments : scope.arguments = c.arguments)
    (functions : scope.functions = c.functions) (deterministic : c.functions.Deterministic)
    (t : Term) (judged : ¬t.Misjudged c params scope)
    (inner : ∀ s : Term, s.Inside t → ¬s.Misjudged c params scope) : t.Agrees c params scope := by
  intro p v compiled ended
  refine (marks_or_misjudged arguments functions deterministic (fun s member => ?_) compiled
    ended).resolve_right judged
  -- The induction is on the term: what occurs within a part occurs within the whole.
  exact agrees_of_inside arguments functions deterministic s (inner s (.part member))
    fun u inside => inner u (.deeper inside member)
termination_by t
decreasing_by exact sizeOf_lt_of_mem_parts member

theorem eval_member_of_unknown {item collection : Term} {a w : Value} (negated : Bool)
    (left : item.eval scope = .ok a) (right : collection.eval scope = .ok w)
    (unknown : membership item collection a w = .ok .null) :
    (member item collection negated).eval scope = .ok .null := by
  rw [eval]
  exact Except.bind_eq_ok_iff.2 ⟨a, left, Except.bind_eq_ok_iff.2 ⟨w, right,
    Except.bind_eq_ok_iff.2 ⟨.null, unknown, rfl⟩⟩⟩

/-- What is misjudged is unknown on the rows. -/
theorem eval_of_misjudged (functions : scope.functions = c.functions) {t : Term}
    (misjudged : t.Misjudged c params scope) : t.eval scope = .ok .null := by
  cases misjudged with
  | @empty item collection negated nothing unknown ofRow =>
      refine eval_member_of_unknown negated unknown nothing.value ?_
      change Except.ok (amongMembers (isUnknown item .null) .null []) = _
      rw [isUnknown, ofRow]
      rfl
  | contained left right unknown =>
      exact eval_member_of_unknown _ left.value right.value unknown
  | compared left right unknown =>
      rw [eval]
      exact Except.bind_eq_ok_iff.2 ⟨_, left.value,
        Except.bind_eq_ok_iff.2 ⟨_, right.value, unknown⟩⟩
  | negated null =>
      rw [eval]
      exact Except.bind_eq_ok_iff.2 ⟨_, null.value, rfl⟩
  | called compiled known notNull unknown =>
      rw [compile] at compiled
      obtain ⟨f, found, -⟩ := Except.bind_eq_ok_iff.1 compiled
      rw [eval, Scope.function, functions, Walk.ofOption_eq_ok_iff.1 found]
      exact Except.bind_eq_ok_iff.2 ⟨f, rfl, Except.bind_eq_ok_iff.2 ⟨none, unknown, rfl⟩⟩
  | method compiled known notNull unknown =>
      rw [compile] at compiled
      obtain ⟨f, found, -⟩ := Except.bind_eq_ok_iff.1 compiled
      rw [eval_method, Scope.method, functions, Walk.ofOption_eq_ok_iff.1 found]
      exact Except.bind_eq_ok_iff.2 ⟨f, rfl, Except.bind_eq_ok_iff.2 ⟨none, unknown, rfl⟩⟩

/-- The constant of a term that is misjudged is not NULL. -/
theorem not_null_of_misjudged {t : Term} (misjudged : t.Misjudged c params scope) {p : Piece}
    {k : Value} (compiled : t.compile c params = .ok p) (known : p.fragment.constant = some k) :
    k ≠ .null := by
  have ofTest (test : p.IsTest) : k ≠ .null := by
    rintro rfl
    cases test.constant _ known
  cases misjudged with
  | empty | contained => exact ofTest (isTest_compile_member compiled)
  | compared =>
      rw [compile] at compiled
      obtain ⟨_, _, -, -, compared⟩ := compile_pair_eq_ok compiled
      exact ofTest (tests_compare compared).isTest
  | negated =>
      rw [compile] at compiled
      obtain ⟨_, -, negated⟩ := Except.bind_eq_ok_iff.1 compiled
      exact ofTest (tests_negation negated).isTest
  | called compiled' known' notNull | method compiled' known' notNull =>
      obtain rfl := Except.ok.inj (compiled.symm.trans compiled')
      obtain rfl := Option.some.inj (known.symm.trans known')
      exact notNull

/-- Where the compiler takes a term for a constant the term has this value on the rows, unless it
is misjudged.  In the place of a condition the constant is the value or its truth value. -/
theorem folding_agrees_iff (arguments : scope.arguments = c.arguments)
    (functions : scope.functions = c.functions) (deterministic : c.functions.Deterministic)
    {t : Term} (inner : ∀ s : Term, s.Inside t → ¬s.Misjudged c params scope) {p : Piece}
    {v : Value} (compiled : t.compile c params = .ok p) (ended : t.eval scope = .ok v) :
    (∀ k, p.fragment.constant = some k → (v = k ↔ ¬t.Misjudged c params scope)) ∧
      ∀ q k, c.asCondition p = .ok q → q.fragment.constant = some k →
        ¬t.Misjudged c params scope → k = v ∨ k = .bool v.truthy := by
  have agrees (judged : ¬t.Misjudged c params scope) : p.Marks v :=
    agrees_of_inside arguments functions deterministic t judged inner p v compiled ended
  constructor
  · intro k known
    constructor
    · rintro rfl misjudged
      refine not_null_of_misjudged misjudged compiled known ?_
      exact Except.ok.inj (ended.symm.trans (eval_of_misjudged functions misjudged))
    · exact fun judged => agrees judged k known
  · intro q k coerced known judged
    obtain ⟨u, isConstant, same⟩ := constant_of_asCondition coerced known
    obtain rfl := agrees judged u isConstant
    exact same

/-- NULL is all that constants and values differ about. -/
theorem agrees_of_no_null (arguments : scope.arguments = c.arguments)
    (functions : scope.functions = c.functions) (deterministic : c.functions.Deterministic)
    {t : Term} (filled : t.eval scope ≠ .ok .null)
    (inner : ∀ s : Term, s.Inside t → s.eval scope ≠ .ok .null) : t.Agrees c params scope :=
  agrees_of_inside arguments functions deterministic t
    (fun misjudged => filled (eval_of_misjudged functions misjudged))
    fun s inside misjudged => inner s inside (eval_of_misjudged functions misjudged)

section Fruit

/-- A table of fruit by color. -/
def fruitContext : CompileContext where
  dialect := .sqlite
  functions := .standard
  bindings := [.ofTable {
    name := "fruit", quotedName := Dialect.sqlite.quoteName "fruit"
    columns := [{ key := "color", name := "color", quotedName := Dialect.sqlite.quoteName "color",
                  kind := .text, type := .varyingOf "VARCHAR" .varchar 16383 }] }]

/-- Fruit whose color is not among no colors at all. -/
def ofAnyColor : Term :=
  member (field (param 0) "color") (tuple []) true

/-- Fruit without a color. -/
def colorless : Scope where
  rows := [[("color", .null)]]
  functions := .standard

theorem inside_ofAnyColor {s : Term} (inside : s.Inside ofAnyColor) :
    s = field (param 0) "color" ∨ s = param 0 ∨ s = tuple [] := by
  have leaf {t : Term} (none_ : t.parts = []) : ¬s.Inside t := by
    rw [inside_iff, none_]
    simp
  rw [inside_iff, ofAnyColor, parts] at inside
  simp only [List.mem_cons, List.not_mem_nil, or_false, exists_eq_or_imp, exists_eq_left] at inside
  rcases inside with (rfl | inside) | rfl | inside
  · exact .inl rfl
  · obtain ⟨u, member, rfl | inside⟩ := inside_iff.1 inside
    · exact .inr (.inl (List.mem_singleton.1 member))
    · obtain rfl := List.mem_singleton.1 member
      exact absurd inside (leaf rfl)
  · exact .inr (.inr rfl)
  · exact absurd inside (leaf rfl)

theorem colorless_is_misjudged :
    ∃ p, ofAnyColor.compile fruitContext ["f"] = .ok p ∧ p.exact = true ∧
      p.fragment.constant = some (.bool true) ∧ ofAnyColor.eval colorless = .ok .null ∧
      ofAnyColor.Misjudged fruitContext ["f"] colorless := by
  obtain ⟨p, compiled, exactness, known⟩ :
      ∃ p, ofAnyColor.compile fruitContext ["f"] = .ok p ∧ p.exact = true ∧
        p.fragment.constant = some (.bool true) := ⟨_, rfl, rfl, rfl⟩
  have ended : ofAnyColor.eval colorless = .ok .null := rfl
  have agrees := (folding_agrees_iff rfl rfl FunctionLibrary.sound_standard.deterministic
    (fun s inside => by rcases inside_ofAnyColor inside with rfl | rfl | rfl <;> nofun) compiled
    ended).1 _ known
  refine ⟨p, compiled, exactness, known, ended, ?_⟩
  by_contra judged
  cases agrees.2 judged

end Fruit

end Term

end RowQuery
