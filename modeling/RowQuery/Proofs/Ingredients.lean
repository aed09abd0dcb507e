import Mathlib.Logic.Relation
import RowQuery.Proofs.Folding.Term
import RowQuery.Query.Select

/-!
# What the compiler goes through

The compiler puts the piece of a term together from the pieces of others.  These are smaller, so
that what one step of the compiler keeps holds of whatever it goes through.
-/

open Relation (ReflTransGen)

namespace RowQuery.Term

/-- The terms that make up a term in one step.  A column is one step, and a test whether an item
is among members takes these one by one. -/
def ingredients : Term → List Term
  | field (param _) _ => []
  | member item (tuple members) _ => item :: members
  | t => t.parts

/-- The second term is compiled in the course of the first one. -/
def GoesThrough : Term → Term → Prop :=
  ReflTransGen fun t s => s ∈ t.ingredients

theorem ingredients_field {target : Term} (name : String) (noColumn : ∀ i, target ≠ param i) :
    (field target name).ingredients = [target] := by
  cases target with
  | param index => exact absurd rfl (noColumn index)
  | _ => rfl

theorem ingredients_member {item collection : Term} (negated : Bool)
    (noTuple : ∀ members, collection ≠ tuple members) :
    (member item collection negated).ingredients = [item, collection] := by
  cases collection with
  | tuple members => exact absurd rfl (noTuple members)
  | _ => rfl

theorem sizeOf_lt_of_mem_ingredients {s t : Term} (among : s ∈ t.ingredients) :
    sizeOf s < sizeOf t := by
  unfold ingredients at among
  split at among
  · cases among
  · rename_i item members negated
    have smaller : sizeOf (tuple members) < sizeOf (member item (tuple members) negated) :=
      sizeOf_lt_of_mem_parts (by simp [parts])
    rcases List.mem_cons.1 among with rfl | among
    · exact sizeOf_lt_of_mem_parts (by simp [parts])
    · have inside : s ∈ (tuple members).parts := among
      exact Nat.lt_trans (sizeOf_lt_of_mem_parts inside) smaller
  · exact sizeOf_lt_of_mem_parts among

theorem goesThrough_entry {t whole : Term} (among : t ∈ whole.entries) : whole.GoesThrough t := by
  unfold entries at among
  split at among
  · exact .single among
  · obtain rfl := List.mem_singleton.1 among
    exact .refl

/-- The terms to sort by are compiled without the marks of those that are descending. -/
theorem goesThrough_sortKey {t whole : Term} (among : t ∈ whole.entries) :
    whole.GoesThrough t.sortKey.1 := by
  refine (goesThrough_entry among).trans ?_
  unfold sortKey
  split
  · split
    · exact .single (List.mem_singleton_self _)
    · exact .refl
  · exact .refl

/-! ## Steps of the compiler -/

/-- The function that a term calls. -/
def function? (l : FunctionLibrary) : Term → Option Function
  | call name _ => l.function? name
  | method _ name _ => l.method? name
  | _ => none

/-- The last step in compiling a term, which puts the pieces of other terms together. -/
inductive Step (c : CompileContext) (t : Term) (made : Piece → Prop) : Piece → Prop
  | literal {v : Value} {p : Piece} (written : c.literal v = .ok p) : Step c t made p
  | column {i : Nat} {key : String} {p : Piece} (same : t = field (param i) key)
      (found : c.column i key = .ok p) : Step c t made p
  | field {base p : Piece} {name : String} (inner : made base) (ended : c.field base name = .ok p) :
      Step c t made p
  | call {f : Function} {name : String} {pieces : List Piece} {p : Piece}
      (called : t.function? c.functions = some f) (each : ∀ q ∈ pieces, made q)
      (ended : c.call name f pieces = .ok p) : Step c t made p
  | compare {shown : String} {l r p : Piece} {op : Comparison} (left : made l) (right : made r)
      (ended : c.compare shown l op r = .ok p) : Step c t made p
  | member {item p : Piece} {pieces : List Piece} {negated : Bool} (needle : made item)
      (each : ∀ q ∈ pieces, made q) (ended : c.member item pieces negated = .ok p) :
      Step c t made p
  | contains {item whole p : Piece} {negated : Bool} (needle : made item)
      (collection : made whole ∨ ∃ v, c.literal v = .ok whole)
      (ended : c.contains item whole negated = .ok p) : Step c t made p
  | arithmetic {l r p : Piece} {op : Arithmetic} (left : made l) (right : made r)
      (ended : c.arithmetic l op r = .ok p) : Step c t made p
  | junction {parts : List (Option Piece)} {conjunction : Bool} {p : Piece}
      (each : ∀ q, some q ∈ parts → ∃ base, made base ∧ c.asCondition base = .ok q)
      (ended : c.junction parts conjunction = .ok p) : Step c t made p
  | negation {base condition p : Piece} (inner : made base)
      (conditionEq : c.asCondition base = .ok condition) (ended : c.negation condition = .ok p) :
      Step c t made p
  | negative {base p : Piece} (inner : made base) (ended : c.negative base = .ok p) :
      Step c t made p
  | named {base : Piece} (inner : made base) (name : String) :
      Step c t made { base with fragment := base.fragment.named name }

variable {c : CompileContext} {params : List String} {p : Piece}

/-- The pieces that the last step puts together. -/
def Made (c : CompileContext) (params : List String) (t : Term) (p : Piece) : Prop :=
  ∃ u ∈ t.ingredients, u.compile c params = .ok p

theorem made_of_mem_items {t : Term} {items : List Term} {pieces : List Piece}
    (among : ∀ u ∈ items, u ∈ t.ingredients) (compiled : compileItems c params items = .ok pieces) :
    ∀ q ∈ pieces, t.Made c params q := by
  intro q member
  obtain ⟨u, listed, ended⟩ := (compileItems_eq_ok_iff.1 compiled).flip.exists_of_mem member
  exact ⟨u, among u listed, ended.1⟩

theorem made_of_mem_parts {t : Term} {items : List Term} {parts : List (Option Piece)}
    (among : ∀ u ∈ items, u ∈ t.ingredients) (compiled : compileParts c params items = .ok parts) :
    ∀ q, some q ∈ parts → ∃ base, t.Made c params base ∧ c.asCondition base = .ok q := by
  intro q member
  obtain ⟨u, listed, base, baseEq, condition⟩ := exists_of_mem_compileParts compiled member
  exact ⟨base, ⟨u, among u listed, baseEq⟩, condition⟩

theorem step_of_member {item collection : Term} {negated : Bool}
    (compiled : (Term.member item collection negated).compile c params = .ok p) :
    (Term.member item collection negated).Step c
      ((Term.member item collection negated).Made c params) p := by
  by_cases listed : ∃ members, collection = tuple members
  · obtain ⟨members, rfl⟩ := listed
    rw [compile] at compiled
    obtain ⟨needle, needleEq, rest⟩ := Except.bind_eq_ok_iff.1 compiled
    obtain ⟨pieces, piecesEq, compiled⟩ := Except.bind_eq_ok_iff.1 rest
    have made := (compile_exactly_eq_ok_iff.1 needleEq).1
    split at compiled
    · obtain ⟨whole, wholeEq, compiled⟩ := Except.bind_eq_ok_iff.1 compiled
      exact .contains ⟨item, by simp [ingredients], made⟩ (.inr ⟨_, wholeEq⟩) compiled
    · exact .member ⟨item, by simp [ingredients], made⟩
        (made_of_mem_items (fun u among => List.mem_cons_of_mem item among) piecesEq) compiled
  · have noTuple : ∀ members, collection ≠ tuple members := fun members same =>
      listed ⟨members, same⟩
    have made := @ingredients_member item _ negated noTuple
    rw [compile_member _ _ _ _ noTuple] at compiled
    obtain ⟨needle, whole, ⟨needleEq, -⟩, ⟨wholeEq, -⟩, compiled⟩ := compile_pair_eq_ok compiled
    exact .contains ⟨item, by simp [made], needleEq⟩ (.inl ⟨collection, by simp [made], wholeEq⟩)
      compiled

theorem call_of_compile {t : Term} {f : Function} (called : t.function? c.functions = some f)
    (compiled : t.compile c params = .ok p) : ∃ name pieces,
      (∀ q ∈ pieces, t.Made c params q) ∧ c.call name f pieces = .ok p := by
  cases t with
  | call name operands =>
      rw [compile] at compiled
      obtain ⟨g, found, rest⟩ := Except.bind_eq_ok_iff.1 compiled
      obtain ⟨pieces, piecesEq, compiled⟩ := Except.bind_eq_ok_iff.1 rest
      obtain rfl := Option.some.inj (called.symm.trans (Walk.ofOption_eq_ok_iff.1 found))
      exact ⟨name, pieces, made_of_mem_items (by simp [ingredients, parts]) piecesEq, compiled⟩
  | method target name operands =>
      rw [compile] at compiled
      obtain ⟨g, found, rest⟩ := Except.bind_eq_ok_iff.1 compiled
      obtain ⟨first, firstEq, rest⟩ := Except.bind_eq_ok_iff.1 rest
      obtain ⟨pieces, piecesEq, compiled⟩ := Except.bind_eq_ok_iff.1 rest
      obtain rfl := Option.some.inj (called.symm.trans (Walk.ofOption_eq_ok_iff.1 found))
      have head : (method target name operands).Made c params first :=
        ⟨target, by simp [ingredients, parts], (compile_exactly_eq_ok_iff.1 firstEq).1⟩
      have tail : ∀ q ∈ pieces, (method target name operands).Made c params q :=
        made_of_mem_items (fun u among => by simp [ingredients, parts, among]) piecesEq
      exact ⟨name, first :: pieces, List.forall_mem_cons.2 ⟨head, tail⟩, compiled⟩
  | _ => cases called

/-- A term is compiled by one step from its ingredients. -/
theorem step_of_compile {t : Term} (compiled : t.compile c params = .ok p) :
    t.Step c (t.Made c params) p := by
  cases t with
  | param index => cases compiled
  | field target name =>
      by_cases column : ∃ i, target = param i
      · obtain ⟨i, rfl⟩ := column
        exact .column rfl compiled
      · have noColumn : ∀ i, target ≠ param i := fun i same => column ⟨i, same⟩
        have made := ingredients_field name noColumn
        rw [compile_field _ _ _ noColumn] at compiled
        obtain ⟨base, baseEq, compiled⟩ := Except.bind_eq_ok_iff.1 compiled
        exact .field ⟨target, by simp [made], (compile_exactly_eq_ok_iff.1 baseEq).1⟩ compiled
  | constant value => exact .literal compiled
  | argument name =>
      obtain ⟨v, -, written⟩ := CompileContext.folded_eq_ok compiled
      exact .literal written
  | subscript target key =>
      rw [compile] at compiled
      obtain ⟨_, _, -, -, compiled⟩ := compile_pair_eq_ok compiled
      obtain ⟨_, _, _, -, -, -, written⟩ := subscript_eq_ok compiled
      exact .literal written
  | tuple items =>
      rw [compile] at compiled
      obtain ⟨values, -, written⟩ := Except.bind_eq_ok_iff.1 compiled
      exact .literal written
  | call name operands =>
      obtain ⟨f, found, -⟩ := Except.bind_eq_ok_iff.1 compiled
      have called : (call name operands).function? c.functions = some f :=
        Walk.ofOption_eq_ok_iff.1 found
      obtain ⟨_, _, each, ended⟩ := call_of_compile called compiled
      exact .call called each ended
  | method target name operands =>
      obtain ⟨f, found, -⟩ := Except.bind_eq_ok_iff.1 compiled
      have called : (method target name operands).function? c.functions = some f :=
        Walk.ofOption_eq_ok_iff.1 found
      obtain ⟨_, _, each, ended⟩ := call_of_compile called compiled
      exact .call called each ended
  | compare l op r =>
      rw [compile] at compiled
      obtain ⟨left, right, ⟨leftEq, -⟩, ⟨rightEq, -⟩, compiled⟩ := compile_pair_eq_ok compiled
      exact .compare ⟨l, by simp [ingredients, parts], leftEq⟩
        ⟨r, by simp [ingredients, parts], rightEq⟩ compiled
  | member item collection negated => exact step_of_member compiled
  | arithmetic l op r =>
      rw [compile] at compiled
      obtain ⟨left, right, ⟨leftEq, -⟩, ⟨rightEq, -⟩, compiled⟩ := compile_pair_eq_ok compiled
      exact .arithmetic ⟨l, by simp [ingredients, parts], leftEq⟩
        ⟨r, by simp [ingredients, parts], rightEq⟩ compiled
  | all items =>
      rw [compile] at compiled
      obtain ⟨parts, partsEq, compiled⟩ := Except.bind_eq_ok_iff.1 compiled
      exact .junction (made_of_mem_parts (by simp [ingredients, Term.parts]) partsEq) compiled
  | any items =>
      rw [compile] at compiled
      obtain ⟨parts, partsEq, compiled⟩ := Except.bind_eq_ok_iff.1 compiled
      exact .junction (made_of_mem_parts (by simp [ingredients, Term.parts]) partsEq) compiled
  | not inner =>
      rw [compile] at compiled
      obtain ⟨piece, pieceEq, compiled⟩ := Except.bind_eq_ok_iff.1 compiled
      obtain ⟨condition, conditionEq, exactness⟩ := Except.bind_eq_ok_iff.1 pieceEq
      obtain ⟨rfl, -⟩ := Piece.exactly_eq_ok_iff.1 exactness
      obtain ⟨base, baseEq, conditionEq⟩ := Except.bind_eq_ok_iff.1 conditionEq
      exact .negation ⟨inner, by simp [ingredients, parts], baseEq⟩ conditionEq compiled
  | negate inner =>
      rw [compile] at compiled
      obtain ⟨piece, pieceEq, compiled⟩ := Except.bind_eq_ok_iff.1 compiled
      exact .negative ⟨inner, by simp [ingredients, parts], (compile_exactly_eq_ok_iff.1 pieceEq).1⟩
        compiled
  | named inner name =>
      rw [compile] at compiled
      obtain ⟨piece, pieceEq, named⟩ := Except.bind_eq_ok_iff.1 compiled
      obtain rfl := Except.ok.inj named
      exact .named ⟨inner, by simp [ingredients, parts], pieceEq⟩ name

end RowQuery.Term
