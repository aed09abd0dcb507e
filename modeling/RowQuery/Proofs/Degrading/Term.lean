import RowQuery.Proofs.Degrading.Operation
import RowQuery.Proofs.Degrading.Reached
import RowQuery.Proofs.Filling.Step

/-!
# Restrictions that degrade

If a restriction can be evaluated on all rows of its tables then it can be compiled, though perhaps
not exactly, as long as every part of it is evaluated on some rows on which its constants are known.
The only other hindrance are doubles that no database can read.
-/

namespace RowQuery

open Value

/-- Rows with a cell for every column and nothing else, each NULL or of the kind of its column. -/
structure Scope.Complete (scope : Scope) (c : CompileContext) : Prop extends scope.Suits c where
  count : scope.rows.length = c.bindings.length
  keys : ∀ (index : Nat) (binding : Binding) (row : Row), c.bindings[index]? = some binding →
    scope.rows[index]? = some row →
      ∀ key, (row.get? key).isSome = (binding.table.column? key).isSome

namespace Term

open Piece CompileContext BuiltinDialect Walk

section

variable (c : CompileContext) (params : List String)

/-- What the compiler takes for a constant is not unknown on the rows. -/
def KnownConstant (scope : Scope) (t : Term) : Prop :=
  ∀ p k a, t.compile c params = .ok p → p.fragment.constant = some k → t.eval scope = .ok a →
    isUnknown t a = false

/-- The evaluation of the whole term reaches the part on some rows of the tables, and on these the
constants of which the part is made are known. -/
def Exercises (whole part : Term) : Prop :=
  ∃ scope : Scope, scope.Complete c ∧ whole.Reaches scope part ∧
    ∀ u ∈ part.ingredients, u.KnownConstant c params scope

end

variable {b : BuiltinDialect} {c : CompileContext} {params : List String} {scope : Scope}

/-! ## Operands -/

theorem degrades_exactly {t : Term} (degrades : (t.compile c params).Degrades) :
    (t.compile c params >>= Piece.exactly).Degrades :=
  degrades.bind fun p _ => p.degrades_exactly

theorem degrades_pair {l r : Term} (left : (l.compile c params).Degrades)
    (right : (r.compile c params).Degrades) {combine : Piece → Piece → Walk Piece}
    (combined : ∀ p q, l.compile c params = .ok p → r.compile c params = .ok q →
      (combine p q).Degrades) :
    (do
      let p ← l.compile c params >>= Piece.exactly
      let q ← r.compile c params >>= Piece.exactly
      combine p q : Walk Piece).Degrades :=
  (degrades_exactly left).bind fun p pEq => (degrades_exactly right).bind fun q qEq =>
    combined p q (compile_exactly_eq_ok_iff.1 pEq).1 (compile_exactly_eq_ok_iff.1 qEq).1

theorem degrades_items {items : List Term}
    (each : ∀ s ∈ items, (s.compile c params).Degrades) :
    (compileItems c params items).Degrades := by
  induction items with
  | nil => exact degrades_ok _
  | cons item items ih =>
      rw [List.forall_mem_cons] at each
      rw [compileItems]
      exact (degrades_exactly each.1).bind fun _ _ => (ih each.2).bind fun _ _ => degrades_ok _

theorem degrades_constants {items : List Term}
    (each : ∀ s ∈ items, (s.compile c params).Degrades) :
    (compileConstants c params items).Degrades := by
  induction items with
  | nil => exact degrades_ok _
  | cons item items ih =>
      rw [List.forall_mem_cons] at each
      rw [compileConstants]
      exact (degrades_exactly each.1).bind fun _ _ => (degrades_ofOption _).bind
        fun _ _ => (ih each.2).bind fun _ _ => degrades_ok _

theorem degrades_parts {items : List Term}
    (each : ∀ s ∈ items, (s.compile c params).Degrades) :
    (compileParts c params items).Degrades := by
  induction items with
  | nil => exact degrades_ok _
  | cons item items ih =>
      rw [List.forall_mem_cons] at each
      have condition : (item.compile c params >>= c.asCondition).Degrades :=
        each.1.bind fun _ _ => degrades_asCondition _
      have later (part : Option Piece) : (do
          let parts ← compileParts c params items
          .ok (part :: parts) : Walk (List (Option Piece))).Degrades :=
        (ih each.2).bind fun _ _ => degrades_ok _
      rw [compileParts]
      split
      · exact later _
      · exact later _
      · rename_i cause failed
        rintro cause' ⟨⟩
        exact condition cause failed

/-- The values of two operands that are constants are what the constants foresee. -/
theorem foresees_pair (suits : scope.Suits c) (sound : c.functions.Sound) {l r : Term} {v : Value}
    {combine : Value → Value → Outcome Value}
    (ended : (do
      let a ← l.eval scope
      if isUnknown l a then .ok Value.null
      else
        let b ← r.eval scope
        if isUnknown r b then .ok Value.null else combine a b) = .ok v)
    (known : l.KnownConstant c params scope) (known' : r.KnownConstant c params scope)
    {p q : Piece} (left : l.compile c params = .ok p) (right : r.compile c params = .ok q)
    {k k' : Value} (constant_ : p.fragment.constant = some k)
    (constant' : q.fragment.constant = some k') :
    ∃ a a', k.Foresees a ∧ k'.Foresees a' ∧ combine a a' = .ok v := by
  obtain ⟨a, aEq, ended⟩ := Except.bind_eq_ok_iff.1 ended
  rw [known p k a left constant_ aEq] at ended
  obtain ⟨a', aEq', ended⟩ := Except.bind_eq_ok_iff.1 ended
  rw [known' q k' a' right constant' aEq'] at ended
  exact ⟨a, a', (compile_foretells suits sound left aEq).foreseen k constant_,
    (compile_foretells suits sound right aEq').foreseen k' constant', ended⟩

/-- Operands that are constants are known, and their values are what the constants foresee. -/
theorem foresees_operands (suits : scope.Suits c) (sound : c.functions.Sound)
    {operands : List Term} {pieces : List Piece} {ks : List Value} {known : Option (List Value)}
    (isKnown : ∀ s ∈ operands, s.KnownConstant c params scope)
    (compiled : List.Forall₂ (fun t p => t.compile c params = .ok p ∧ p.exact = true) operands pieces)
    (constants : (pieces.mapM fun p => p.fragment.constant) = some ks)
    (evaluated : evalKnown scope operands = .ok known) :
    ∃ vs, known = some vs ∧ List.Forall₂ Foresees ks vs := by
  have constant_ := List.mapM_eq_some_iff.1 constants
  cases known with
  | none =>
      obtain ⟨s, among, null, unknown⟩ := unknown_of_evalKnown evaluated
      obtain ⟨p, among', compiles, -⟩ := compiled.exists_of_mem among
      obtain ⟨k, -, foreseen⟩ := constant_.exists_of_mem among'
      rw [isKnown s among p k _ compiles foreseen null] at unknown
      cases unknown
  | some vs =>
      refine ⟨vs, rfl, constants_foresee constants ?_⟩
      exact compiled.of_common (known_of_evalKnown evaluated)
        fun s _ p v compiles value => compile_foretells suits sound compiles.1 value.1

theorem degrades_called (builtin : c.dialect = b.dialect) (suits : scope.Suits c)
    (sound : c.functions.Sound) {f : Function} (usual : f.Usual) {name : String}
    {operands : List Term} {pieces : List Piece}
    (isKnown : ∀ s ∈ operands, s.KnownConstant c params scope)
    (compiled : List.Forall₂ (fun t p => t.compile c params = .ok p ∧ p.exact = true) operands pieces)
    {known : Option (List Value)} (evaluated : evalKnown scope operands = .ok known) {v : Value}
    (ended : (match known with
      | some vs => f.apply name vs
      | none => .ok .null) = .ok v) : (c.call name f pieces).Degrades := by
  refine degrades_call builtin fun ks constants foldable => ?_
  obtain ⟨vs, rfl, each⟩ := foresees_operands suits sound isKnown compiled constants evaluated
  exact usual.apply_ends foldable each ended

/-! ## Tests -/

/-- A comparison with a constant NULL asks for equality. -/
theorem equality_of_literalNull {l r : Term} {op : Comparison} {a a' v : Value}
    (literal : isLiteralNull l a = true ∨ isLiteralNull r a' = true)
    (ended : compareValues l r op a a' = .ok v) : op.isEquality = true := by
  have null {t : Term} {w : Value} (literal : isLiteralNull t w = true) : w.isNull = true :=
    (Bool.and_eq_true_iff.1 literal).1
  have asks : (isLiteralNull l a || isLiteralNull r a') = true := by
    rcases literal with literal | literal <;> simp [literal]
  have isNull : (a.isNull || a'.isNull) = true := by
    rcases literal with literal | literal <;> simp [null literal]
  unfold compareValues at ended
  rw [asks] at ended
  obtain ⟨answer, compared, -⟩ := Except.map_eq_ok_iff.1 ended
  unfold compareBy at compared
  rw [if_pos isNull, compareNull] at compared
  by_contra ordering
  rw [if_neg ordering] at compared
  cases compared

theorem isLiteralNull_of_known_null {t : Term} (known : isUnknown t .null = false) :
    isLiteralNull t .null = true := by
  unfold isUnknown at known
  simp only [isLiteralNull, isNull, Bool.true_and] at known ⊢
  rw [known]
  rfl

/-- What a constant NULL foresees is NULL. -/
theorem null_of_foresees {v : Value} (foresees : Foresees .null v) : v = .null := by
  cases foresees
  rfl

theorem degrades_compared {l r : Term} {op : Comparison} {v : Value} (shown : String)
    (suits : scope.Suits c) (sound : c.functions.Sound)
    (ended : (compare l op r).eval scope = .ok v) (known : l.KnownConstant c params scope)
    (known' : r.KnownConstant c params scope) {p q : Piece} (left : l.compile c params = .ok p)
    (right : r.compile c params = .ok q) : (c.compare shown p op q).Degrades := by
  rw [eval] at ended
  obtain ⟨a, aEq, ended⟩ := Except.bind_eq_ok_iff.1 ended
  obtain ⟨a', aEq', ended⟩ := Except.bind_eq_ok_iff.1 ended
  have first := compile_foretells suits sound left aEq
  have second := compile_foretells suits sound right aEq'
  have literal {t : Term} {u : Piece} {w : Value} (isKnown : t.KnownConstant c params scope)
      (compiled : t.compile c params = .ok u) (wEq : t.eval scope = .ok w) (foretells : u.Foretells w)
      (null : u.fragment.isNull = true) : isLiteralNull t w = true := by
    obtain ⟨k, constant_⟩ : ∃ k, u.fragment.constant = some k := by
      cases none_ : u.fragment.constant with
      | none =>
          rw [Sql.Fragment.isNull_of_open none_] at null
          cases null
      | some k => exact ⟨k, rfl⟩
    rw [Sql.Fragment.isNull_of_constant constant_, isNull_iff] at null
    obtain rfl := null
    obtain rfl := null_of_foresees (foretells.foreseen _ constant_)
    exact isLiteralNull_of_known_null (isKnown u _ _ compiled constant_ wEq)
  refine degrades_compare (fun null => ?_) fun k k' constant_ constant' => ?_
  · refine equality_of_literalNull (Or.imp ?_ ?_ (Bool.or_eq_true_iff.1 null)) ended
    · exact literal known left aEq first
    · exact literal known' right aEq' second
  · unfold compareValues at ended
    simp only [known p k a left constant_ aEq, known' q k' a' right constant' aEq', Bool.or_self,
      Bool.and_false, if_neg Bool.false_ne_true] at ended
    obtain ⟨answer, compared, -⟩ := Except.map_eq_ok_iff.1 ended
    exact (first.foreseen k constant_).compareBy_ends (second.foreseen k' constant') compared

/-- A collection that is a constant can be asked whatever the values can be asked. -/
theorem contains_of_membership {item collection : Term} {a w v k k' : Value}
    (needle : k.Foresees a) (whole : k'.Foresees w) (known : isUnknown item a = false)
    (known' : isUnknown collection w = false) (ended : membership item collection a w = .ok v) :
    ∃ found, k'.contains k = .ok found := by
  by_cases listed : w.kind = .list
  · obtain ⟨members, rfl⟩ := exists_items_of_kind listed
    have isList : k'.kind = .list := (whole.kind_of_known nofun).symm
    obtain ⟨items, rfl⟩ := exists_items_of_kind isList
    exact ⟨_, rfl⟩
  · rw [membership_of_single listed, known, known'] at ended
    obtain ⟨found, contained, -⟩ := Except.map_eq_ok_iff.1 ended
    exact whole.contains_ends needle contained

theorem degrades_tested {item collection : Term} {negated : Bool} {v : Value}
    (builtin : c.dialect = b.dialect) (suits : scope.Suits c) (sound : c.functions.Sound)
    (ended : (member item collection negated).eval scope = .ok v)
    (isKnown : ∀ u ∈ (member item collection negated).ingredients, u.KnownConstant c params scope)
    (each : ∀ u ∈ (member item collection negated).ingredients, (u.compile c params).Degrades) :
    ((member item collection negated).compile c params).Degrades := by
  by_cases listed : ∃ members, collection = tuple members
  · obtain ⟨members, rfl⟩ := listed
    rw [compile]
    have each := List.forall_mem_cons.1 each
    refine (degrades_exactly each.1).bind fun needle _ =>
      (degrades_items each.2).bind fun pieces _ => ?_
    split
    · -- A list can be asked for anything.
      refine (degrades_literal builtin _).bind fun whole written => ?_
      refine degrades_contains builtin negated fun k w _ known => ?_
      obtain rfl := Option.some.inj ((constant_of_literal written).1.symm.trans known)
      exact ⟨_, rfl⟩
    · exact degrades_member _ _ _
  · have noTuple : ∀ members, collection ≠ tuple members := fun members same => listed ⟨members, same⟩
    rw [ingredients_member negated noTuple] at each isKnown
    rw [compile_member _ _ _ _ noTuple]
    refine degrades_pair (each item (by simp)) (each collection (by simp))
      fun p q left right => degrades_contains builtin negated fun k k' constant_ constant' => ?_
    rw [eval] at ended
    obtain ⟨a, aEq, ended⟩ := Except.bind_eq_ok_iff.1 ended
    obtain ⟨w, wEq, ended⟩ := Except.bind_eq_ok_iff.1 ended
    obtain ⟨found, among, -⟩ := Except.bind_eq_ok_iff.1 ended
    exact contains_of_membership ((compile_foretells suits sound left aEq).foreseen k constant_)
      ((compile_foretells suits sound right wEq).foreseen k' constant')
      (isKnown item (by simp) p k a left constant_ aEq)
      (isKnown collection (by simp) q k' w right constant' wEq) among

/-! ## All terms -/

theorem degrades_of_column (complete : scope.Complete c) {index : Nat} {key : String} {v : Value}
    (ended : scope.column index key = .ok v) : (c.column index key).Degrades := by
  unfold Scope.column at ended
  split at ended
  · cases ended
  · rename_i row here
    split at ended
    · rename_i cell present
      have inReach : index < c.bindings.length := by
        rw [← complete.count]
        exact (List.getElem?_eq_some_iff.1 here).1
      have bound := List.getElem?_eq_getElem inReach
      have listed := complete.keys index _ row bound here key
      rw [present] at listed
      obtain ⟨column, found⟩ := Option.isSome_iff_exists.1 listed.symm
      exact degrades_column bound found
    · cases ended

/-- One step of the compiler fails for want of an SQL form or of a literal only, if it does not fail
before and the term has a value on some rows on which its constants are known. -/
theorem degrades_of_ingredients (builtin : c.dialect = b.dialect)
    (isStandard : c.functions.IsStandard) (complete : scope.Complete c) {t : Term} {v : Value}
    (ended : t.eval scope = .ok v)
    (isKnown : ∀ u ∈ t.ingredients, u.KnownConstant c params scope)
    (each : ∀ u ∈ t.ingredients, (u.compile c params).Degrades) : (t.compile c params).Degrades := by
  have suits := complete.toSuits
  have sound := isStandard.sound
  cases t with
  | param index => cases ended
  | field target name =>
      by_cases column : ∃ i, target = param i
      · obtain ⟨i, rfl⟩ := column
        exact degrades_of_column complete ended
      · have noColumn : ∀ i, target ≠ param i := fun i same => column ⟨i, same⟩
        rw [ingredients_field name noColumn] at each isKnown
        rw [compile_field _ _ _ noColumn]
        refine (degrades_exactly (each target (by simp))).bind fun base baseEq => ?_
        have baseEq := (compile_exactly_eq_ok_iff.1 baseEq).1
        refine degrades_field builtin fun k constant_ => ?_
        rw [eval_field _ noColumn] at ended
        obtain ⟨a, aEq, ended⟩ := Except.bind_eq_ok_iff.1 ended
        rw [isKnown target (by simp) base k a baseEq constant_ aEq] at ended
        have foresees := (compile_foretells suits sound baseEq aEq).foreseen k constant_
        exact ⟨v, foresees.field_ends ended⟩
  | constant value => exact degrades_literal builtin value
  | argument name =>
      have ended : argumentValue scope.arguments name = .ok v := ended
      rw [suits.arguments] at ended
      exact degrades_folded builtin ended
  | subscript target key =>
      rw [eval] at ended
      rw [compile]
      refine degrades_pair (each target (by simp [ingredients, parts]))
        (each key (by simp [ingredients, parts])) fun p q left right => ?_
      split
      · rename_i k k' constant_ constant'
        obtain ⟨a, a', whole, index, ended⟩ := foresees_pair suits sound ended
          (isKnown target (by simp [ingredients, parts])) (isKnown key (by simp [ingredients, parts]))
          left right constant_ constant'
        obtain ⟨u, folded⟩ := whole.item_ends index ended
        exact degrades_folded builtin folded
      · exact degrades_noForm
  | tuple items =>
      rw [compile]
      exact (degrades_constants each).bind fun _ _ => degrades_literal builtin _
  | call name operands =>
      rw [eval] at ended
      rw [compile]
      obtain ⟨f, found, ended⟩ := Except.bind_eq_ok_iff.1 ended
      obtain ⟨known, evaluated, ended⟩ := Except.bind_eq_ok_iff.1 ended
      have found := function_eq_ok found
      rw [suits.functions] at found
      rw [found]
      refine (degrades_items each).bind fun pieces piecesEq => ?_
      exact degrades_called builtin suits sound (isStandard.usual.functions name f found) isKnown
        (compileItems_eq_ok_iff.1 piecesEq) evaluated ended
  | method target name operands =>
      rw [eval_method] at ended
      rw [compile]
      obtain ⟨f, found, ended⟩ := Except.bind_eq_ok_iff.1 ended
      obtain ⟨known, evaluated, ended⟩ := Except.bind_eq_ok_iff.1 ended
      have found := method_eq_ok found
      rw [suits.functions] at found
      rw [found]
      have both := List.forall_mem_cons.1 each
      refine (degrades_exactly both.1).bind fun first firstEq =>
        (degrades_items both.2).bind fun pieces piecesEq => ?_
      exact degrades_called builtin suits sound (isStandard.usual.methods name f found) isKnown
        (.cons (compile_exactly_eq_ok_iff.1 firstEq) (compileItems_eq_ok_iff.1 piecesEq)) evaluated
        ended
  | compare l op r =>
      rw [compile]
      exact degrades_pair (each l (by simp [ingredients, parts]))
        (each r (by simp [ingredients, parts])) fun p q left right =>
          degrades_compared _ suits sound ended (isKnown l (by simp [ingredients, parts]))
            (isKnown r (by simp [ingredients, parts])) left right
  | member item collection negated => exact degrades_tested builtin suits sound ended isKnown each
  | arithmetic l op r =>
      rw [eval] at ended
      rw [compile]
      refine degrades_pair (each l (by simp [ingredients, parts]))
        (each r (by simp [ingredients, parts])) fun p q left right => ?_
      refine degrades_arithmetic builtin fun k k' constant_ constant' => ?_
      obtain ⟨a, a', first, second, ended⟩ := foresees_pair suits sound ended
        (isKnown l (by simp [ingredients, parts])) (isKnown r (by simp [ingredients, parts]))
        left right constant_ constant'
      exact ⟨v, first.arithmetic_ends second ended⟩
  | all items | any items =>
      rw [compile]
      exact (degrades_parts each).bind fun _ _ => degrades_junction _ _
  | not inner =>
      rw [compile]
      have condition : (inner.compile c params >>= c.asCondition).Degrades :=
        (each inner (by simp [ingredients, parts])).bind fun _ _ => degrades_asCondition _
      exact (condition.bind fun p _ => p.degrades_exactly).bind fun _ _ => degrades_negation _
  | negate inner =>
      rw [eval] at ended
      rw [compile]
      refine (degrades_exactly (each inner (by simp [ingredients, parts]))).bind fun p pEq => ?_
      have pEq := (compile_exactly_eq_ok_iff.1 pEq).1
      refine degrades_negative builtin fun k constant_ => ?_
      obtain ⟨a, aEq, ended⟩ := Except.bind_eq_ok_iff.1 ended
      rw [isKnown inner (by simp [ingredients, parts]) p k a pEq constant_ aEq] at ended
      have foresees := (compile_foretells suits sound pEq aEq).foreseen k constant_
      exact ⟨v, foresees.negate_ends ended⟩
  | named inner name =>
      rw [compile]
      exact (each inner (by simp [ingredients, parts])).bind fun _ _ => degrades_ok _

/-- Every part that is compiled is exercised, so it has a value where it is, and the compiler fails
nowhere but for want of an SQL form or of a literal. -/
theorem degrades_of_exercised (builtin : c.dialect = b.dialect)
    (isStandard : c.functions.IsStandard) {whole : Term}
    (evaluates : ∀ scope : Scope, scope.Complete c → ∃ v, whole.eval scope = .ok v)
    (exercised : ∀ s, whole.GoesThrough s → whole.Exercises c params s) (t : Term)
    (through : whole.GoesThrough t) : (t.compile c params).Degrades := by
  obtain ⟨scope, complete, reaches, isKnown⟩ := exercised t through
  obtain ⟨v, ended⟩ := evaluates scope complete
  obtain ⟨w, wEq⟩ := eval_of_reaches reaches ended
  exact degrades_of_ingredients builtin isStandard complete wEq isKnown fun u among =>
    degrades_of_exercised builtin isStandard evaluates exercised u (through.tail among)
termination_by t
decreasing_by exact sizeOf_lt_of_mem_ingredients among

end Term

/-! ## Restrictions -/

/-- A restriction that can be evaluated on all rows of its tables, and all parts of which are
evaluated on some rows on which its constants are known, is compiled, if need be to a condition that
is not exact.  It fails for a double without literal only. -/
theorem CompileContext.restrictions_degrade {b : BuiltinDialect} {c : CompileContext}
    (builtin : c.dialect = b.dialect) (isStandard : c.functions.IsStandard) (e : Lambda)
    (evaluates : ∀ scope : Scope, scope.Complete c → ∃ v, e.evaluate scope = .ok v)
    (exercised : ∀ s, e.body.GoesThrough s → e.body.Exercises c e.params s) :
    (∃ rendering, c.restrict e = .ok rendering) ∨
      ∃ cause : Fault, cause.IsUnwritable ∧ c.restrict e = .error cause := by
  have ends (scope : Scope) (complete : scope.Complete c) :
      scope.rows.length = e.arity ∧ ∃ v, e.body.eval scope = .ok v := by
    obtain ⟨v, ended⟩ := evaluates scope complete
    unfold Lambda.evaluate at ended
    split at ended
    · rename_i fits
      exact ⟨fits, v, ended⟩
    · cases ended
  have arity : e.arity = c.bindings.length := by
    obtain ⟨scope, complete, -⟩ := exercised e.body .refl
    rw [← (ends scope complete).1, complete.count]
  have degrades : (e.body.compile c e.params >>= c.asCondition).Degrades :=
    (Term.degrades_of_exercised builtin isStandard (fun scope complete => (ends scope complete).2)
      exercised e.body .refl).bind fun p _ => degrades_asCondition p
  unfold restrict checkArity
  rw [if_pos arity]
  cases compiled : e.body.compile c e.params >>= c.asCondition with
  | ok piece => exact .inl ⟨{ fragment := piece.fragment, exact := piece.exact }, rfl⟩
  | error obstacle =>
      cases obstacle with
      | fault cause => exact .inr ⟨cause, degrades cause compiled, rfl⟩
      | noForm =>
          obtain ⟨piece, always⟩ := BuiltinDialect.exists_truth builtin true
          rw [always]
          exact .inl ⟨{ fragment := piece.fragment, exact := false }, rfl⟩

section Ratings

open Term

/-- A table of scores. -/
def ratingsTable : Table where
  name := "ratings"
  quotedName := Dialect.sqlite.quoteName "ratings"
  columns := [{ key := "score", name := "score", quotedName := Dialect.sqlite.quoteName "score",
                kind := .float, type := .floatingOf "REAL" 53 }]

def ratings : CompileContext where
  dialect := .sqlite
  functions := .standard
  bindings := [.ofTable ratingsTable]

/-- The scores that are finite. -/
def finiteScore : Lambda where
  params := ["r"]
  body := compare (field (param 0) "score") .lt (constant (.float (1.0 / 0.0)))
  bound := by decide

/-- A rating without a score. -/
def unrated : Scope where
  rows := [[("score", .null)]]
  functions := .standard

theorem eval_finiteScore {scope : Scope} (complete : scope.Complete ratings) :
    ∃ v, finiteScore.evaluate scope = .ok v := by
  obtain ⟨row, only⟩ := List.length_eq_one_iff.1 complete.count
  have here : scope.rows[0]? = some row := by rw [only]; rfl
  obtain ⟨cell, present⟩ : ∃ cell, row.get? "score" = some cell :=
    Option.isSome_iff_exists.1 (complete.keys 0 _ row rfl here "score")
  have fits : cell.Fits .float := complete.rows 0 _ row rfl here "score" _ cell rfl present
  have cellEq : (field (param 0) "score").eval scope = .ok cell := by
    rw [eval, Scope.column, here]
    simp only [present]
  have arity : scope.rows.length = finiteScore.arity := complete.count
  rw [Lambda.evaluate, if_pos arity, finiteScore, eval, cellEq]
  rcases fits with rfl | kind
  · exact ⟨_, rfl⟩
  · cases cell <;> first | (cases kind; done) | exact ⟨_, rfl⟩

theorem complete_unrated : unrated.Complete ratings where
  arguments := rfl
  functions := rfl
  rows := by
    rintro (_ | index) binding row bound here key column value found present
    · obtain rfl := Option.some.inj here
      have member := Keyed.mem_of_get? present
      rw [List.mem_singleton, Prod.mk.injEq] at member
      exact .inl member.2
    · cases here
  count := rfl
  keys := by
    rintro (_ | index) binding row bound here key
    · obtain rfl := Option.some.inj here
      obtain rfl := Option.some.inj bound
      by_cases known : "score" = key
      · subst known
        rfl
      · have noCell : Keyed.get? key [("score", Value.null)] = none := if_neg known
        have noColumn : ratingsTable.column? key = none :=
          List.find?_eq_none.2 (by simpa [ratingsTable] using known)
        exact (congrArg Option.isSome noCell).trans (congrArg Option.isSome noColumn).symm
    · cases here

/-- All parts of the test are evaluated for the rating without a score. -/
theorem exercises_finiteScore (s : Term) (through : finiteScore.body.GoesThrough s) :
    finiteScore.body.Exercises ratings finiteScore.params s := by
  have score : (field (param 0) "score").KnownConstant ratings finiteScore.params unrated := by
    rintro p k a ⟨⟩ ⟨⟩
  have limit : (constant (.float (1.0 / 0.0))).KnownConstant ratings finiteScore.params unrated := by
    rintro p k a - - ⟨⟩
    rfl
  have operands : s = finiteScore.body ∨ s ∈ finiteScore.body.ingredients := by
    induction through with
    | refl => exact .inl rfl
    | tail _ among ih =>
        refine .inr ?_
        rcases ih with rfl | ih
        · exact among
        · rcases List.mem_pair.1 ih with rfl | rfl <;> cases among
  rcases operands with rfl | among
  · refine ⟨unrated, complete_unrated, .refl, ?_⟩
    exact List.forall_mem_cons.2 ⟨score, List.forall_mem_singleton.2 limit⟩
  · refine ⟨unrated, complete_unrated, .single among, ?_⟩
    rcases List.mem_pair.1 among with rfl | rfl <;> nofun

theorem finiteScore_has_no_literal :
    (∀ scope : Scope, scope.Complete ratings → ∃ v, finiteScore.evaluate scope = .ok v) ∧
      ratings.restrict finiteScore = .error (.value "inf has no portable SQL literal") ∧
      Fault.IsUnwritable (.value "inf has no portable SQL literal") := by
  have fails : ratings.restrict finiteScore = .error (.value "inf has no portable SQL literal") :=
    rfl
  refine ⟨fun _ => eval_finiteScore, fails, ?_⟩
  have degrades := CompileContext.restrictions_degrade (c := ratings) (b := .sqlite) rfl (.inl rfl)
    finiteScore (fun _ => eval_finiteScore) exercises_finiteScore
  rw [fails] at degrades
  rcases degrades with ⟨rendering, compiled⟩ | ⟨cause, unwritable, failed⟩
  · cases compiled
  · cases failed
    exact unwritable

end Ratings

end RowQuery
