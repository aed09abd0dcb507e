import RowQuery.Proofs.Folding.Piece
import RowQuery.Proofs.Kind.Term
import RowQuery.Proofs.Truth

/-!
# Constants of terms, step by step

On a row a term has the value that it has as a constant, with one exception: where an operand comes
from the row and is NULL the value may be unknown, and the constant is a truth value all the same.
This happens to memberships, comparisons, negations and calls, under the conditions of `Misjudged`.
-/

namespace RowQuery

open Value

namespace Term

open Piece CompileContext

/-- The terms that a term is put together from. -/
def parts : Term → List Term
  | param _ | constant _ | argument _ => []
  | field inner _ | not inner | negate inner | named inner _ => [inner]
  | subscript l r | compare l _ r | member l r _ | arithmetic l _ r => [l, r]
  | method target _ operands => target :: operands
  | tuple items | call _ items | all items | any items => items

/-- A term occurs within another. -/
inductive Inside : Term → Term → Prop
  | part {s t : Term} (member : s ∈ t.parts) : Inside s t
  | deeper {s u t : Term} (inside : Inside s u) (member : u ∈ t.parts) : Inside s t

theorem inside_iff {s t : Term} : s.Inside t ↔ ∃ u ∈ t.parts, s = u ∨ s.Inside u := by
  constructor
  · rintro (member | ⟨inside, member⟩)
    · exact ⟨s, member, .inl rfl⟩
    · exact ⟨_, member, .inr inside⟩
  · rintro ⟨u, member, rfl | inside⟩
    · exact .part member
    · exact .deeper inside member

section

variable (c : CompileContext) (params : List String) (scope : Scope)

/-- A term is a constant for the compiler, and has this value on the rows. -/
structure Folds (t : Term) (k : Value) : Prop where
  known : ∃ p, t.compile c params = .ok p ∧ p.fragment.constant = some k
  value : t.eval scope = .ok k

/-- A term is a constant for the compiler although its value is unknown on the rows. -/
inductive Misjudged : Term → Prop
  /-- An item that is unknown is said not to be in an empty collection. -/
  | empty {item collection : Term} {negated : Bool}
      (nothing : collection.Folds c params scope (.list []))
      (unknown : item.eval scope = .ok .null) (ofRow : item.readsRow = true) :
      Misjudged (member item collection negated)
  | contained {item collection : Term} {negated : Bool} {a w : Value}
      (left : item.Folds c params scope a) (right : collection.Folds c params scope w)
      (unknown : membership item collection a w = .ok .null) :
      Misjudged (member item collection negated)
  | compared {l r : Term} {op : Comparison} {a b : Value} (left : l.Folds c params scope a)
      (right : r.Folds c params scope b) (unknown : compareValues l r op a b = .ok .null) :
      Misjudged (compare l op r)
  /-- NOT of a constant is taken of its truth value, and NULL has none. -/
  | negated {inner : Term} (null : inner.Folds c params scope .null) : Misjudged (not inner)
  | called {name : String} {operands : List Term} {p : Piece} {k : Value}
      (compiled : (call name operands).compile c params = .ok p)
      (known : p.fragment.constant = some k) (notNull : k ≠ .null)
      (unknown : evalKnown scope operands = .ok none) : Misjudged (call name operands)
  | method {target : Term} {name : String} {operands : List Term} {p : Piece} {k : Value}
      (compiled : (method target name operands).compile c params = .ok p)
      (known : p.fragment.constant = some k) (notNull : k ≠ .null)
      (unknown : evalKnown scope (target :: operands) = .ok none) :
      Misjudged (method target name operands)

/-- What the compiler takes for the value of a term is its value. -/
def Agrees (t : Term) : Prop :=
  ∀ p v, t.compile c params = .ok p → t.eval scope = .ok v → p.Marks v

end

variable {c : CompileContext} {params : List String} {scope : Scope}

/-! ## Fields, items and arithmetic -/

theorem marks_of_field {target : Term} {name : String} (agrees : target.Agrees c params scope)
    {p : Piece} {v : Value} (compiled : (field target name).compile c params = .ok p)
    (ended : (field target name).eval scope = .ok v) : p.Marks v := by
  -- A field of a row parameter is a column, which is no constant.
  by_cases column : ∃ i, target = param i
  · obtain ⟨i, rfl⟩ := column
    exact marks_column compiled
  · have noColumn : ∀ i, target ≠ param i := fun i same => column ⟨i, same⟩
    rw [compile_field _ _ _ noColumn] at compiled
    rw [eval_field _ noColumn] at ended
    obtain ⟨base, baseEq, compiled⟩ := Except.bind_eq_ok_iff.1 compiled
    obtain ⟨a, aEq, ended⟩ := Except.bind_eq_ok_iff.1 ended
    have marks := agrees base a (compile_exactly_eq_ok_iff.1 baseEq).1 aEq
    split at ended
    · rename_i unknown
      obtain rfl := Except.ok.inj ended
      obtain rfl := null_of_isUnknown unknown
      exact marks_field_null compiled marks
    · exact marks_field compiled marks ended

theorem marks_of_subscript {target key : Term} (left : target.Agrees c params scope)
    (right : key.Agrees c params scope) {p : Piece} {v : Value}
    (compiled : (subscript target key).compile c params = .ok p)
    (ended : (subscript target key).eval scope = .ok v) : p.Marks v := by
  rw [compile] at compiled
  rw [eval] at ended
  obtain ⟨whole, index, ⟨wholeEq, -⟩, ⟨indexEq, -⟩, compiled⟩ := compile_pair_eq_ok compiled
  obtain ⟨k, k', u, known, known', folded, written⟩ := subscript_eq_ok compiled
  obtain ⟨solid, plain⟩ := plain_of_item folded
  obtain ⟨a, aEq, ended⟩ := Except.bind_eq_ok_iff.1 ended
  have left := left whole a wholeEq aEq
  split at ended
  · rename_i unknown
    exact absurd (null_of_isUnknown unknown) (left.not_null_of_solid known solid)
  · obtain ⟨b, bEq, ended⟩ := Except.bind_eq_ok_iff.1 ended
    have right := right index b indexEq bEq
    split at ended
    · rename_i unknown
      exact absurd (null_of_isUnknown unknown) (right.not_null_of_solid known' plain.toSolid)
    · obtain rfl := left k known
      obtain rfl := right k' known'
      obtain rfl := Except.ok.inj (folded.symm.trans ended)
      exact marks_literal written

theorem marks_of_arithmetic {l r : Term} {op : Arithmetic} (left : l.Agrees c params scope)
    (right : r.Agrees c params scope) {p : Piece} {v : Value}
    (compiled : (arithmetic l op r).compile c params = .ok p)
    (ended : (arithmetic l op r).eval scope = .ok v) : p.Marks v := by
  rw [compile] at compiled
  rw [eval] at ended
  obtain ⟨first, second, ⟨firstEq, -⟩, ⟨secondEq, -⟩, compiled⟩ := compile_pair_eq_ok compiled
  obtain ⟨a, aEq, ended⟩ := Except.bind_eq_ok_iff.1 ended
  have left := left first a firstEq aEq
  split at ended
  · rename_i unknown
    obtain rfl := Except.ok.inj ended
    obtain rfl := null_of_isUnknown unknown
    exact marks_arithmetic_null compiled (.inl left)
  · obtain ⟨b, bEq, ended⟩ := Except.bind_eq_ok_iff.1 ended
    have right := right second b secondEq bEq
    split at ended
    · rename_i unknown
      obtain rfl := Except.ok.inj ended
      obtain rfl := null_of_isUnknown unknown
      exact marks_arithmetic_null compiled (.inr right)
    · exact marks_arithmetic compiled left right ended

theorem marks_of_negate {inner : Term} (agrees : inner.Agrees c params scope) {p : Piece}
    {v : Value} (compiled : (negate inner).compile c params = .ok p)
    (ended : (negate inner).eval scope = .ok v) : p.Marks v := by
  rw [compile] at compiled
  rw [eval] at ended
  obtain ⟨piece, pieceEq, compiled⟩ := Except.bind_eq_ok_iff.1 compiled
  obtain ⟨a, aEq, ended⟩ := Except.bind_eq_ok_iff.1 ended
  have marks := agrees piece a (compile_exactly_eq_ok_iff.1 pieceEq).1 aEq
  split at ended
  · rename_i unknown
    obtain rfl := Except.ok.inj ended
    obtain rfl := null_of_isUnknown unknown
    exact marks_negative_null compiled marks
  · exact marks_negative compiled marks ended

/-! ## Memberships -/

/-- Among members of which none is unknown an item that is known is looked for. -/
theorem amongMembers_eq_or_null {itemUnknown : Bool} {item : Value} {members : List (Value × Bool)}
    (null : itemUnknown = true → item = .null) :
    amongMembers itemUnknown item members = .bool (members.any fun (v, _) => v.looseEq item) ∨
      amongMembers itemUnknown item members = .null := by
  unfold amongMembers
  split
  · rename_i unknown
    obtain rfl := null unknown
    split
    · rename_i listed
      obtain ⟨⟨v, ofRow⟩, member, isNull⟩ := List.any_eq_true.1 listed
      have found : (members.any fun (v, _) => v.looseEq .null) = true := by
        refine List.any_eq_true.2 ⟨(v, ofRow), member, ?_⟩
        cases v with
        | null => rfl
        | _ => cases isNull
      exact .inl (by rw [found])
    · exact .inr rfl
  · split
    · rename_i found
      exact .inl (by rw [found])
    · rename_i absent
      split
      · exact .inr rfl
      · exact .inl (by rw [Bool.eq_false_iff.2 absent])

theorem length_memberOrigins {collection : Term} {members : List Value}
    (ended : collection.eval scope = .ok (.list members)) :
    (memberOrigins collection members).length = members.length := by
  cases collection with
  | tuple items =>
      rw [eval] at ended
      obtain ⟨vs, evaluated, ended⟩ := Except.bind_eq_ok_iff.1 ended
      obtain rfl := Value.list.inj (Except.ok.inj ended)
      simp [memberOrigins, (evalItems_eq_ok_iff.1 evaluated).length_eq]
  | _ => simp [memberOrigins]

/-- A membership that is not unknown is what it is between constants. -/
theorem membership_eq_or_null {item collection : Term} {a w v : Value} {found : Bool}
    (whole : collection.eval scope = .ok w) (ended : membership item collection a w = .ok v)
    (known : w.contains a = .ok found) : v = .bool found ∨ v = .null := by
  unfold membership at ended
  split at ended
  · exact .inr (Except.ok.inj ended).symm
  · split at ended
    · rename_i members _
      obtain rfl := Except.ok.inj ended
      have among : found = (members.zip (memberOrigins collection members)).any
          fun (v, _) => v.looseEq a := by
        have items : (members.zip (memberOrigins collection members)).map Prod.fst = members :=
          List.map_fst_zip (length_memberOrigins whole).ge
        rw [← Except.ok.inj known]
        conv_lhs => rw [← items]
        rw [List.any_map]
        rfl
      rw [among]
      exact amongMembers_eq_or_null null_of_isUnknown
    · split at ended
      · exact .inr (Except.ok.inj ended).symm
      · rw [known] at ended
        exact .inl (Except.ok.inj ended).symm

/-- The items of a tuple are exact, and constants. -/
theorem compileConstants_eq_ok_iff {items : List Term} {ks : List Value} :
    compileConstants c params items = .ok ks ↔
      List.Forall₂ (fun t k => ∃ p, (t.compile c params = .ok p ∧ p.exact = true) ∧
        p.fragment.constant = some k) items ks := by
  induction items generalizing ks with
  | nil =>
      rw [compileConstants, List.forall₂_nil_left_iff]
      exact ⟨fun ended => (Except.ok.inj ended).symm, fun empty => empty ▸ rfl⟩
  | cons item items ih =>
      rw [compileConstants, Except.bind_eq_ok_iff, List.forall₂_cons_left_iff]
      constructor
      · rintro ⟨p, head, rest⟩
        obtain ⟨k, known, rest⟩ := Except.bind_eq_ok_iff.1 rest
        obtain ⟨later, tail, ended⟩ := Except.bind_eq_ok_iff.1 rest
        exact ⟨k, later, ⟨p, compile_exactly_eq_ok_iff.1 head, Walk.ofOption_eq_ok_iff.1 known⟩,
          ih.1 tail, (Except.ok.inj ended).symm⟩
      · rintro ⟨k, later, ⟨p, head, known⟩, tail, rfl⟩
        exact ⟨p, compile_exactly_eq_ok_iff.2 head, Except.bind_eq_ok_iff.2
          ⟨k, Walk.ofOption_eq_ok_iff.2 known, Except.bind_eq_ok_iff.2 ⟨later, ih.2 tail, rfl⟩⟩⟩

/-- However a collection is written, a membership that is a constant is a test of two pieces. -/
theorem member_eq_ok {item collection : Term} {negated : Bool} {p : Piece} {k : Value}
    (compiled : (member item collection negated).compile c params = .ok p)
    (known : p.fragment.constant = some k) :
    ∃ needle whole, item.compile c params = .ok needle ∧ collection.compile c params = .ok whole ∧
      c.contains needle whole negated = .ok p := by
  by_cases listed : ∃ members, collection = tuple members
  · obtain ⟨members, rfl⟩ := listed
    rw [compile] at compiled
    obtain ⟨needle, needleEq, rest⟩ := Except.bind_eq_ok_iff.1 compiled
    obtain ⟨pieces, piecesEq, compiled⟩ := Except.bind_eq_ok_iff.1 rest
    have needleEq := (compile_exactly_eq_ok_iff.1 needleEq).1
    split at compiled
    · rename_i ks constants
      obtain ⟨whole, wholeEq, compiled⟩ := Except.bind_eq_ok_iff.1 compiled
      refine ⟨needle, whole, needleEq, ?_, compiled⟩
      rw [compile]
      refine Except.bind_eq_ok_iff.2 ⟨ks, compileConstants_eq_ok_iff.2 ?_, wholeEq⟩
      exact (compileItems_eq_ok_iff.1 piecesEq).flip.of_common (List.mapM_eq_some_iff.1 constants)
        fun piece _ _ _ pieceEq isConstant => ⟨piece, pieceEq, isConstant⟩
    · rename_i open_
      obtain ⟨rfl, -⟩ := constant_of_member compiled known
      cases open_
  · rw [compile_member _ _ _ _ fun members same => listed ⟨members, same⟩] at compiled
    obtain ⟨needle, whole, needleEq, wholeEq, compiled⟩ := compile_pair_eq_ok compiled
    exact ⟨needle, whole, needleEq.1, wholeEq.1, compiled⟩

theorem marks_or_misjudged_member {item collection : Term} {negated : Bool}
    (left : item.Agrees c params scope) (right : collection.Agrees c params scope) {p : Piece}
    {v : Value} (compiled : (member item collection negated).compile c params = .ok p)
    (ended : (member item collection negated).eval scope = .ok v) :
    p.Marks v ∨ (member item collection negated).Misjudged c params scope := by
  rw [or_iff_not_imp_right]
  intro judged k known
  obtain ⟨needle, whole, needleEq, wholeEq, tested⟩ := member_eq_ok compiled known
  rw [eval] at ended
  obtain ⟨a, aEq, ended⟩ := Except.bind_eq_ok_iff.1 ended
  obtain ⟨w, wEq, ended⟩ := Except.bind_eq_ok_iff.1 ended
  obtain ⟨answer, among, ended⟩ := Except.bind_eq_ok_iff.1 ended
  obtain rfl := Except.ok.inj ended
  rcases constant_of_contains tested known with ⟨u, u', found, itemIs, wholeIs, contained, rfl⟩ |
    ⟨nothing, rfl⟩
  · obtain rfl := left needle a needleEq aEq u itemIs
    obtain rfl := right whole w wholeEq wEq u' wholeIs
    rcases membership_eq_or_null wEq among contained with rfl | rfl
    · rfl
    · exact absurd (.contained ⟨⟨needle, needleEq, itemIs⟩, aEq⟩ ⟨⟨whole, wholeEq, wholeIs⟩, wEq⟩
        among) judged
  · obtain rfl := right whole w wholeEq wEq _ nothing
    have among : amongMembers (isUnknown item a) a [] = answer := Except.ok.inj among
    cases unknown : isUnknown item a with
    | true =>
        obtain rfl := null_of_isUnknown unknown
        exact absurd (.empty ⟨⟨whole, wholeEq, nothing⟩, wEq⟩ aEq unknown) judged
    | false =>
        rw [unknown] at among
        rw [← among]
        cases negated <;> rfl

/-! ## Operands -/

theorem marks_items {items : List Term} {pieces : List Piece} {vs : List Value}
    (each : ∀ s ∈ items, s.Agrees c params scope)
    (compiled : compileItems c params items = .ok pieces)
    (ended : evalItems scope items = .ok vs) : List.Forall₂ Marks pieces vs :=
  (compileItems_eq_ok_iff.1 compiled).of_common (evalItems_eq_ok_iff.1 ended)
    fun s member piece v pieceEq vEq => each s member piece v pieceEq.1 vEq

theorem marks_of_tuple {items : List Term} (each : ∀ s ∈ items, s.Agrees c params scope) {p : Piece}
    {v : Value} (compiled : (tuple items).compile c params = .ok p)
    (ended : (tuple items).eval scope = .ok v) : p.Marks v := by
  rw [compile] at compiled
  rw [eval] at ended
  obtain ⟨ks, known, written⟩ := Except.bind_eq_ok_iff.1 compiled
  obtain ⟨vs, evaluated, ended⟩ := Except.bind_eq_ok_iff.1 ended
  obtain rfl := Except.ok.inj ended
  have same : ks = vs := by
    rw [← List.forall₂_eq_eq_eq]
    refine (compileConstants_eq_ok_iff.1 known).of_common (evalItems_eq_ok_iff.1 evaluated) ?_
    rintro s member k v ⟨piece, pieceEq, isConstant⟩ vEq
    exact (each s member piece v pieceEq.1 vEq k isConstant).symm
  exact same ▸ marks_literal written

/-- Operands none of which is unknown. -/
theorem evalItems_of_evalKnown {items : List Term} {vs : List Value}
    (ended : evalKnown scope items = .ok (some vs)) : evalItems scope items = .ok vs := by
  induction items generalizing vs with
  | nil =>
      obtain rfl := Option.some.inj (Except.ok.inj ended)
      rfl
  | cons item items ih =>
      rw [evalKnown] at ended
      obtain ⟨v, first, ended⟩ := Except.bind_eq_ok_iff.1 ended
      split at ended
      · cases ended
      · obtain ⟨known, others, ended⟩ := Except.bind_eq_ok_iff.1 ended
        obtain ⟨later, rfl, rfl⟩ := Option.map_eq_some_iff.1 (Except.ok.inj ended)
        rw [evalItems]
        exact Except.bind_eq_ok_iff.2 ⟨v, first, Except.bind_eq_ok_iff.2 ⟨later, ih others, rfl⟩⟩

/-- A call is what it is between constants, unless one of its operands is unknown. -/
theorem marks_or_unknown {f : Function} {name : String} {operands : List Term}
    {pieces : List Piece} {known : Option (List Value)} {p : Piece} {v : Value}
    (deterministic : f.Deterministic) (each : ∀ s ∈ operands, s.Agrees c params scope)
    (piecesEq : compileItems c params operands = .ok pieces)
    (compiled : c.call name f pieces = .ok p) (evaluated : evalKnown scope operands = .ok known)
    (ended : (match known with
      | some vs => f.apply name vs
      | none => .ok .null) = .ok v) :
    p.Marks v ∨ (known = none ∧ ∃ k, p.fragment.constant = some k ∧ k ≠ .null) := by
  cases known with
  | some vs =>
      have marks := marks_items each piecesEq (evalItems_of_evalKnown evaluated)
      exact .inl (marks_call deterministic compiled marks ended)
  | none =>
      obtain rfl := Except.ok.inj ended
      by_cases marks : p.Marks .null
      · exact .inl marks
      · unfold Marks at marks
        push Not at marks
        obtain ⟨k, known, differs⟩ := marks
        exact .inr ⟨rfl, k, known, differs.symm⟩

theorem marks_or_misjudged_call (functions : scope.functions = c.functions)
    (deterministic : c.functions.Deterministic) {name : String} {operands : List Term}
    (each : ∀ s ∈ operands, s.Agrees c params scope) {p : Piece} {v : Value}
    (whole : (call name operands).compile c params = .ok p)
    (ended : (call name operands).eval scope = .ok v) :
    p.Marks v ∨ (call name operands).Misjudged c params scope := by
  have compiled := whole
  rw [compile] at compiled
  rw [eval] at ended
  obtain ⟨f, found, rest⟩ := Except.bind_eq_ok_iff.1 compiled
  obtain ⟨pieces, piecesEq, compiled⟩ := Except.bind_eq_ok_iff.1 rest
  obtain ⟨f', found', ended⟩ := Except.bind_eq_ok_iff.1 ended
  have found := Walk.ofOption_eq_ok_iff.1 found
  have found' := function_eq_ok found'
  rw [functions, found] at found'
  obtain rfl := Option.some.inj found'
  obtain ⟨known, evaluated, ended⟩ := Except.bind_eq_ok_iff.1 ended
  rcases marks_or_unknown (deterministic.functions name f found) each piecesEq compiled evaluated
    ended with marks | ⟨rfl, k, constant, notNull⟩
  · exact .inl marks
  · exact .inr (.called whole constant notNull evaluated)

/-- The target of a method is the first of its operands. -/
theorem eval_method {target : Term} {name : String} {operands : List Term} :
    (method target name operands).eval scope = (do
      let f ← scope.method name
      match ← evalKnown scope (target :: operands) with
      | some vs => f.apply name vs
      | none => .ok .null) := by
  rw [eval, evalKnown]
  cases scope.method name with
  | error fault => rfl
  | ok f =>
      cases eval scope target with
      | error fault => rfl
      | ok a =>
          simp only [bind, Except.bind]
          split
          · rfl
          · cases evalKnown scope operands with
            | error fault => rfl
            | ok known => cases known <;> rfl

theorem marks_or_misjudged_method (functions : scope.functions = c.functions)
    (deterministic : c.functions.Deterministic) {target : Term} {name : String}
    {operands : List Term} (each : ∀ s ∈ target :: operands, s.Agrees c params scope) {p : Piece}
    {v : Value} (whole : (method target name operands).compile c params = .ok p)
    (ended : (method target name operands).eval scope = .ok v) :
    p.Marks v ∨ (method target name operands).Misjudged c params scope := by
  have compiled := whole
  rw [compile] at compiled
  obtain ⟨f, found, rest⟩ := Except.bind_eq_ok_iff.1 compiled
  obtain ⟨first, firstEq, rest⟩ := Except.bind_eq_ok_iff.1 rest
  obtain ⟨pieces, piecesEq, compiled⟩ := Except.bind_eq_ok_iff.1 rest
  have allEq : compileItems c params (target :: operands) = .ok (first :: pieces) := by
    rw [compileItems]
    exact Except.bind_eq_ok_iff.2 ⟨first, firstEq, Except.bind_eq_ok_iff.2 ⟨pieces, piecesEq, rfl⟩⟩
  rw [eval_method] at ended
  obtain ⟨f', found', ended⟩ := Except.bind_eq_ok_iff.1 ended
  obtain ⟨known, evaluated, ended⟩ := Except.bind_eq_ok_iff.1 ended
  have found := Walk.ofOption_eq_ok_iff.1 found
  have found' := method_eq_ok found'
  rw [functions, found] at found'
  obtain rfl := Option.some.inj found'
  rcases marks_or_unknown (deterministic.methods name f found) each allEq compiled evaluated
    ended with marks | ⟨rfl, k, constant, notNull⟩
  · exact .inl marks
  · exact .inr (.method whole constant notNull evaluated)

/-! ## Comparisons, negations and conjunctions -/

theorem marks_or_misjudged_compare {l r : Term} {op : Comparison}
    (left : l.Agrees c params scope) (right : r.Agrees c params scope) {p : Piece} {v : Value}
    (compiled : (compare l op r).compile c params = .ok p)
    (ended : (compare l op r).eval scope = .ok v) :
    p.Marks v ∨ (compare l op r).Misjudged c params scope := by
  rw [or_iff_not_imp_right]
  intro judged k known
  rw [compile] at compiled
  obtain ⟨first, second, ⟨firstEq, -⟩, ⟨secondEq, -⟩, compared⟩ := compile_pair_eq_ok compiled
  obtain ⟨u, u', answer, firstIs, secondIs, folded, rfl⟩ := constant_of_compare compared known
  rw [eval] at ended
  obtain ⟨a, aEq, ended⟩ := Except.bind_eq_ok_iff.1 ended
  obtain ⟨b, bEq, ended⟩ := Except.bind_eq_ok_iff.1 ended
  obtain rfl := left first a firstEq aEq u firstIs
  obtain rfl := right second b secondEq bEq u' secondIs
  have asked := ended
  unfold compareValues at ended
  dsimp only at ended
  split at ended
  · obtain rfl := Except.ok.inj ended
    exact absurd (.compared ⟨⟨first, firstEq, firstIs⟩, aEq⟩ ⟨⟨second, secondEq, secondIs⟩, bEq⟩
      asked) judged
  · rw [folded] at ended
    exact (Except.ok.inj ended).symm

theorem marks_or_misjudged_not {inner : Term} (agrees : inner.Agrees c params scope) {p : Piece}
    {v : Value} (compiled : (not inner).compile c params = .ok p)
    (ended : (not inner).eval scope = .ok v) :
    p.Marks v ∨ (not inner).Misjudged c params scope := by
  rw [or_iff_not_imp_right]
  intro judged k known
  rw [compile] at compiled
  obtain ⟨condition, conditionEq, negated⟩ := Except.bind_eq_ok_iff.1 compiled
  obtain ⟨u, isConstant, rfl⟩ := constant_of_negation negated known
  obtain ⟨coerced, coercedEq, exactness⟩ := Except.bind_eq_ok_iff.1 conditionEq
  obtain ⟨rfl, -⟩ := exactly_eq_ok_iff.1 exactness
  obtain ⟨piece, pieceEq, coercion⟩ := Except.bind_eq_ok_iff.1 coercedEq
  obtain ⟨w, wIs, same⟩ := constant_of_asCondition coercion isConstant
  rw [eval] at ended
  obtain ⟨a, aEq, ended⟩ := Except.bind_eq_ok_iff.1 ended
  obtain rfl := Except.ok.inj ended
  obtain rfl := agrees piece a pieceEq aEq w wIs
  have truth : u.truthy = a.truthy := by
    rcases same with rfl | rfl <;> rfl
  rw [truth]
  cases a with
  | null => exact absurd (.negated ⟨⟨piece, pieceEq, wIs⟩, aEq⟩) judged
  | _ => rfl

/-- A conjunction or disjunction is known if it is empty. -/
theorem items_of_junction {items : List Term} {parts : List (Option Piece)} {conjunction : Bool}
    {p : Piece} {k : Value} (compiled : compileParts c params items = .ok parts)
    (joined : c.junction parts conjunction = .ok p) (known : p.fragment.constant = some k) :
    items = [] ∧ k = .bool conjunction := by
  obtain ⟨rfl, answer⟩ := constant_of_junction joined known
  refine ⟨?_, answer⟩
  cases items with
  | nil => rfl
  | cons item items =>
      obtain ⟨part, later, impossible, -⟩ := compileParts_cons_eq_ok compiled
      cases impossible

end Term

end RowQuery
