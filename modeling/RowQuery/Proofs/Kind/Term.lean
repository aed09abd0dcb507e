import RowQuery.Proofs.Kind.Piece
import RowQuery.Proofs.Memo.Arguments

/-!
# Kinds of terms

A term that is compiled has a kind, and what it is evaluated to on rows of the kinds of their
columns is NULL or of that kind.  The proof follows the terms; conditions are truth values or
unknown, whatever they are made of.
-/

namespace RowQuery

/-- The rows have values of the kinds of their columns, or NULL. -/
def RowsFit (bindings : List Binding) (rows : List Row) : Prop :=
  ∀ (index : Nat) (binding : Binding) (row : Row), bindings[index]? = some binding →
    rows[index]? = some row → ∀ (key : String) (column : Column) (value : Value),
      binding.table.column? key = some column → row.get? key = some value →
        value.Fits column.kind

/-- Terms that are compiled in a context are evaluated in a scope. -/
structure Scope.Suits (scope : Scope) (c : CompileContext) : Prop where
  arguments : scope.arguments = c.arguments
  functions : scope.functions = c.functions
  rows : RowsFit c.bindings scope.rows

namespace Term

open Value Piece CompileContext

/-! ## Conditions are truth values or unknown -/

theorem null_of_isUnknown {t : Term} {v : Value} (unknown : t.isUnknown v = true) : v = .null := by
  cases v with
  | null => rfl
  | _ => cases unknown

theorem fits_compareValues {l r : Term} {op : Comparison} {a b v : Value}
    (ended : compareValues l r op a b = .ok v) : v.Fits .bool := by
  unfold compareValues at ended
  dsimp only at ended
  split at ended
  · obtain rfl := Except.ok.inj ended
    exact fits_null _
  · obtain ⟨answer, -, rfl⟩ := Except.map_eq_ok_iff.1 ended
    exact fits_bool answer

theorem fits_amongMembers (itemUnknown : Bool) (item : Value) (members : List (Value × Bool)) :
    (amongMembers itemUnknown item members).Fits .bool := by
  unfold amongMembers
  split
  · split
    · exact fits_bool true
    · exact fits_null _
  · split
    · exact fits_bool true
    · split
      · exact fits_null _
      · exact fits_bool false

theorem fits_membership {item collection : Term} {value whole v : Value}
    (ended : membership item collection value whole = .ok v) : v.Fits .bool := by
  unfold membership at ended
  split at ended
  · obtain rfl := Except.ok.inj ended
    exact fits_null _
  · split at ended
    · obtain rfl := Except.ok.inj ended
      exact fits_amongMembers _ _ _
    · split at ended
      · obtain rfl := Except.ok.inj ended
        exact fits_null _
      · obtain ⟨found, -, rfl⟩ := Except.map_eq_ok_iff.1 ended
        exact fits_bool found

theorem fits_negateIf (negated : Bool) {v : Value} (fits : v.Fits .bool) :
    (negateIf negated v).Fits .bool := by
  cases v with
  | bool found => exact fits_bool _
  | _ => exact fits

theorem fits_negation (v : Value) : (negation v).Fits .bool := by
  unfold negation
  split
  · exact fits_null _
  · exact fits_bool _

variable {scope : Scope}

theorem fits_evalAll {items : List Term} {undecided : Bool} {v : Value}
    (ended : evalAll scope undecided items = .ok v) : v.Fits .bool := by
  induction items generalizing undecided with
  | nil =>
      obtain rfl := Except.ok.inj ended
      cases undecided with
      | true => exact fits_null _
      | false => exact fits_bool true
  | cons item items ih =>
      rw [evalAll] at ended
      obtain ⟨value, -, rest⟩ := Except.bind_eq_ok_iff.1 ended
      split at rest
      · exact ih rest
      · split at rest
        · exact ih rest
        · obtain rfl := Except.ok.inj rest
          exact fits_bool false

theorem fits_evalAny {items : List Term} {undecided : Bool} {v : Value}
    (ended : evalAny scope undecided items = .ok v) : v.Fits .bool := by
  induction items generalizing undecided with
  | nil =>
      obtain rfl := Except.ok.inj ended
      cases undecided with
      | true => exact fits_null _
      | false => exact fits_bool false
  | cons item items ih =>
      rw [evalAny] at ended
      obtain ⟨value, -, rest⟩ := Except.bind_eq_ok_iff.1 ended
      split at rest
      · exact ih rest
      · split at rest
        · obtain rfl := Except.ok.inj rest
          exact fits_bool true
        · exact ih rest

/-! ## All terms -/

theorem eval_field {target : Term} (name : String) (noColumn : ∀ i, target ≠ param i) :
    (field target name).eval scope = target.eval scope >>= fun value =>
      if isUnknown target value then .ok .null else value.field name := by
  rw [eval]
  exact noColumn

variable {c : CompileContext}

theorem foretells_column (suits : scope.Suits c) {index : Nat} {key : String} {p : Piece} {v : Value}
    (compiled : c.column index key = .ok p) (ended : scope.column index key = .ok v) :
    p.Foretells v := by
  unfold CompileContext.column at compiled
  unfold Scope.column at ended
  split at compiled
  · cases compiled
  · rename_i binding inReach
    obtain ⟨column, found, ended'⟩ := Except.bind_eq_ok_iff.1 compiled
    obtain rfl := Except.ok.inj ended'
    split at ended
    · cases ended
    · rename_i row here
      split at ended
      · rename_i value present
        obtain rfl := Except.ok.inj ended
        refine .of_open rfl (suits.rows index binding row inReach here key column value ?_ present)
        have found := Walk.ofOutcome_eq_ok_iff.1 found
        unfold Table.lookup at found
        split at found
        · rename_i present
          rw [present, Except.ok.inj found]
        · cases found
      · cases ended

theorem subscript_eq_ok {whole index p : Piece}
    (compiled : (match whole.fragment.constant, index.fragment.constant with
      | some v, some k => c.folded (v.item k)
      | _, _ => .error .noForm) = (.ok p : Walk Piece)) :
    ∃ k k' u, whole.fragment.constant = some k ∧ index.fragment.constant = some k' ∧
      k.item k' = .ok u ∧ c.literal u = .ok p := by
  split at compiled
  · rename_i k k' known known'
    obtain ⟨u, folded, written⟩ := folded_eq_ok compiled
    exact ⟨k, k', u, known, known', folded, written⟩
  · cases compiled

theorem function_eq_ok {name : String} {f : Function} (found : scope.function name = .ok f) :
    scope.functions.function? name = some f := by
  unfold Scope.function at found
  split at found
  · rename_i present
    rw [present, Except.ok.inj found]
  · cases found

theorem method_eq_ok {name : String} {f : Function} (found : scope.method name = .ok f) :
    scope.functions.method? name = some f := by
  unfold Scope.method at found
  split at found
  · rename_i present
    rw [present, Except.ok.inj found]
  · cases found

/-- A call on the values of operands, or on operands one of which is unknown. -/
theorem foretells_result {f : Function} {name : String} {pieces : List Piece} {p : Piece}
    (sound : f.Sound) (compiled : c.call name f pieces = .ok p) {known : Option (List Value)}
    (each : ∀ vs, known = some vs → List.Forall₂ Foretells pieces vs)
    (unknown : known = none → ∃ piece ∈ pieces, piece.Foretells .null) {v : Value}
    (ended : (match known with
      | some vs => f.apply name vs
      | none => .ok .null) = .ok v) : p.Foretells v := by
  cases known with
  | some vs => exact foretells_call sound compiled (each vs rfl) ended
  | none =>
      obtain rfl := Except.ok.inj ended
      exact foretells_call_null sound compiled (unknown rfl)

variable {params : List String}

theorem isTest_compile_member {item collection : Term} {negated : Bool} {p : Piece}
    (compiled : (member item collection negated).compile c params = .ok p) : p.IsTest := by
  by_cases listed : ∃ members, collection = tuple members
  · obtain ⟨members, rfl⟩ := listed
    rw [compile] at compiled
    obtain ⟨needle, -, rest⟩ := Except.bind_eq_ok_iff.1 compiled
    obtain ⟨pieces, -, compiled⟩ := Except.bind_eq_ok_iff.1 rest
    split at compiled
    · obtain ⟨whole, -, compiled⟩ := Except.bind_eq_ok_iff.1 compiled
      exact (tests_contains compiled).isTest
    · exact (tests_member compiled).isTest
  · rw [compile_member _ _ _ _ fun members same => listed ⟨members, same⟩] at compiled
    obtain ⟨needle, -, rest⟩ := Except.bind_eq_ok_iff.1 compiled
    obtain ⟨whole, -, compiled⟩ := Except.bind_eq_ok_iff.1 rest
    exact (tests_contains compiled).isTest

-- The induction carries more than the kinds: the constants of a piece decide which steps are
-- taken beforehand, so what is known of a value has to be right, too.

mutual

/-- The piece of a term foretells the value of the term. -/
theorem compile_foretells (suits : scope.Suits c) (sound : c.functions.Sound) :
    ∀ {t : Term} {p : Piece} {v : Value}, t.compile c params = .ok p → t.eval scope = .ok v →
      p.Foretells v
  | param _, _, _, compiled, _ => by cases compiled
  | field target name, p, v, compiled, ended => by
      by_cases column : ∃ i, target = param i
      · obtain ⟨i, rfl⟩ := column
        exact foretells_column suits compiled ended
      · have noColumn : ∀ i, target ≠ param i := fun i same => column ⟨i, same⟩
        rw [compile_field _ _ _ noColumn] at compiled
        rw [eval_field _ noColumn] at ended
        obtain ⟨base, baseEq, compiled⟩ := Except.bind_eq_ok_iff.1 compiled
        obtain ⟨value, valueEq, ended⟩ := Except.bind_eq_ok_iff.1 ended
        have foretells := compile_foretells suits sound (compile_exactly_eq_ok_iff.1 baseEq).1
          valueEq
        split at ended
        · rename_i unknown
          obtain rfl := Except.ok.inj ended
          obtain rfl := null_of_isUnknown unknown
          exact foretells_field_null compiled foretells
        · exact foretells_field compiled foretells ended
  | constant value, p, v, compiled, ended => by
      obtain rfl : value = v := Except.ok.inj ended
      exact foretells_literal compiled (.same value)
  | argument name, p, v, compiled, ended => by
      obtain ⟨k, known, written⟩ := folded_eq_ok compiled
      have ended : argumentValue scope.arguments name = .ok v := ended
      rw [suits.arguments] at ended
      exact foretells_literal written (.of_eq known ended)
  | subscript target key, p, v, compiled, ended => by
      rw [compile] at compiled
      rw [eval] at ended
      obtain ⟨whole, wholeEq, rest⟩ := Except.bind_eq_ok_iff.1 compiled
      obtain ⟨index, indexEq, compiled⟩ := Except.bind_eq_ok_iff.1 rest
      obtain ⟨a, aEq, ended⟩ := Except.bind_eq_ok_iff.1 ended
      have left := compile_foretells suits sound (compile_exactly_eq_ok_iff.1 wholeEq).1 aEq
      obtain ⟨k, k', u, known, known', folded, written⟩ := subscript_eq_ok compiled
      obtain ⟨solid, plain⟩ := plain_of_item folded
      split at ended
      · rename_i unknown
        exact absurd (null_of_isUnknown unknown) (left.not_null_of_solid known solid)
      · obtain ⟨b, bEq, ended⟩ := Except.bind_eq_ok_iff.1 ended
        have right := compile_foretells suits sound (compile_exactly_eq_ok_iff.1 indexEq).1 bEq
        split at ended
        · rename_i unknown
          exact absurd (null_of_isUnknown unknown) (right.not_null_of_solid known' plain.toSolid)
        · have foresees := (left.foreseen k known).item (right.foreseen k' known') folded ended
          exact foretells_literal written foresees
  | tuple items, p, v, compiled, ended => by
      rw [compile] at compiled
      rw [eval] at ended
      obtain ⟨ks, known, written⟩ := Except.bind_eq_ok_iff.1 compiled
      obtain ⟨vs, evaluated, ended⟩ := Except.bind_eq_ok_iff.1 ended
      obtain rfl := Except.ok.inj ended
      exact foretells_literal written (.list (compileConstants_foresee suits sound known evaluated))
  | call name operands, p, v, compiled, ended => by
      rw [compile] at compiled
      rw [eval] at ended
      obtain ⟨f, found, rest⟩ := Except.bind_eq_ok_iff.1 compiled
      obtain ⟨pieces, piecesEq, compiled⟩ := Except.bind_eq_ok_iff.1 rest
      obtain ⟨f', found', ended⟩ := Except.bind_eq_ok_iff.1 ended
      have found := Walk.ofOption_eq_ok_iff.1 found
      have found' := function_eq_ok found'
      rw [suits.functions, found] at found'
      obtain rfl := Option.some.inj found'
      obtain ⟨known, evaluated, ended⟩ := Except.bind_eq_ok_iff.1 ended
      obtain ⟨each, unknown⟩ := compileItems_foretells suits sound piecesEq evaluated
      exact foretells_result (sound.functions name f found) compiled each unknown ended
  | method target name operands, p, v, compiled, ended => by
      rw [compile] at compiled
      rw [eval] at ended
      obtain ⟨f, found, rest⟩ := Except.bind_eq_ok_iff.1 compiled
      obtain ⟨first, firstEq, rest⟩ := Except.bind_eq_ok_iff.1 rest
      obtain ⟨pieces, piecesEq, compiled⟩ := Except.bind_eq_ok_iff.1 rest
      obtain ⟨f', found', ended⟩ := Except.bind_eq_ok_iff.1 ended
      have found := Walk.ofOption_eq_ok_iff.1 found
      have found' := method_eq_ok found'
      rw [suits.functions, found] at found'
      obtain rfl := Option.some.inj found'
      have sound' := sound.methods name f found
      obtain ⟨value, valueEq, ended⟩ := Except.bind_eq_ok_iff.1 ended
      have head := compile_foretells suits sound (compile_exactly_eq_ok_iff.1 firstEq).1 valueEq
      split at ended
      · rename_i unknown
        obtain rfl := Except.ok.inj ended
        obtain rfl := null_of_isUnknown unknown
        exact foretells_call_null sound' compiled ⟨first, by simp, head⟩
      · obtain ⟨known, evaluated, ended⟩ := Except.bind_eq_ok_iff.1 ended
        obtain ⟨each, unknown⟩ := compileItems_foretells suits sound piecesEq evaluated
        cases known with
        | some vs => exact foretells_call sound' compiled (.cons head (each vs rfl)) ended
        | none =>
            obtain rfl := Except.ok.inj ended
            obtain ⟨piece, member, foretells⟩ := unknown rfl
            exact foretells_call_null sound' compiled ⟨piece, by simp [member], foretells⟩
  | compare l op r, p, v, compiled, ended => by
      rw [compile] at compiled
      rw [eval] at ended
      obtain ⟨_, _, -, -, compiled⟩ := compile_pair_eq_ok compiled
      obtain ⟨a, -, ended⟩ := Except.bind_eq_ok_iff.1 ended
      obtain ⟨b, -, ended⟩ := Except.bind_eq_ok_iff.1 ended
      exact (tests_compare compiled).isTest.foretells (fits_compareValues ended)
  | member item collection negated, p, v, compiled, ended => by
      rw [eval] at ended
      obtain ⟨value, -, ended⟩ := Except.bind_eq_ok_iff.1 ended
      obtain ⟨whole, -, ended⟩ := Except.bind_eq_ok_iff.1 ended
      obtain ⟨found, among, ended⟩ := Except.bind_eq_ok_iff.1 ended
      obtain rfl := Except.ok.inj ended
      exact (isTest_compile_member compiled).foretells (fits_negateIf negated (fits_membership among))
  | arithmetic l op r, p, v, compiled, ended => by
      rw [compile] at compiled
      rw [eval] at ended
      obtain ⟨left, right, ⟨leftEq, -⟩, ⟨rightEq, -⟩, compiled⟩ := compile_pair_eq_ok compiled
      obtain ⟨a, aEq, ended⟩ := Except.bind_eq_ok_iff.1 ended
      have foretellsLeft := compile_foretells suits sound leftEq aEq
      split at ended
      · rename_i unknown
        obtain rfl := Except.ok.inj ended
        obtain rfl := null_of_isUnknown unknown
        exact foretells_arithmetic_null compiled (.inl foretellsLeft)
      · obtain ⟨b, bEq, ended⟩ := Except.bind_eq_ok_iff.1 ended
        have foretellsRight := compile_foretells suits sound rightEq bEq
        split at ended
        · rename_i unknown
          obtain rfl := Except.ok.inj ended
          obtain rfl := null_of_isUnknown unknown
          exact foretells_arithmetic_null compiled (.inr foretellsRight)
        · exact foretells_arithmetic compiled foretellsLeft foretellsRight ended
  | all items, p, v, compiled, ended => by
      rw [compile] at compiled
      rw [eval] at ended
      obtain ⟨parts, -, compiled⟩ := Except.bind_eq_ok_iff.1 compiled
      exact (tests_junction compiled).isTest.foretells (fits_evalAll ended)
  | any items, p, v, compiled, ended => by
      rw [compile] at compiled
      rw [eval] at ended
      obtain ⟨parts, -, compiled⟩ := Except.bind_eq_ok_iff.1 compiled
      exact (tests_junction compiled).isTest.foretells (fits_evalAny ended)
  | not inner, p, v, compiled, ended => by
      rw [compile] at compiled
      rw [eval] at ended
      obtain ⟨piece, -, compiled⟩ := Except.bind_eq_ok_iff.1 compiled
      obtain ⟨value, -, ended⟩ := Except.bind_eq_ok_iff.1 ended
      obtain rfl := Except.ok.inj ended
      exact (tests_negation compiled).isTest.foretells (fits_negation value)
  | negate inner, p, v, compiled, ended => by
      rw [compile] at compiled
      rw [eval] at ended
      obtain ⟨piece, pieceEq, compiled⟩ := Except.bind_eq_ok_iff.1 compiled
      obtain ⟨value, valueEq, ended⟩ := Except.bind_eq_ok_iff.1 ended
      have foretells := compile_foretells suits sound (compile_exactly_eq_ok_iff.1 pieceEq).1 valueEq
      split at ended
      · rename_i unknown
        obtain rfl := Except.ok.inj ended
        obtain rfl := null_of_isUnknown unknown
        exact foretells_negative_null compiled foretells
      · exact foretells_negative compiled foretells ended
  | named inner name, p, v, compiled, ended => by
      rw [compile] at compiled
      rw [eval] at ended
      obtain ⟨piece, pieceEq, named⟩ := Except.bind_eq_ok_iff.1 compiled
      have foretells := compile_foretells suits sound pieceEq ended
      obtain rfl := Except.ok.inj named
      exact ⟨foretells.fits, foretells.foreseen⟩

theorem compileItems_foretells (suits : scope.Suits c) (sound : c.functions.Sound) :
    ∀ {items : List Term} {pieces : List Piece} {known : Option (List Value)},
      compileItems c params items = .ok pieces → evalKnown scope items = .ok known →
      (∀ vs, known = some vs → List.Forall₂ Foretells pieces vs) ∧
        (known = none → ∃ piece ∈ pieces, piece.Foretells .null)
  | [], _, _, compiled, ended => by
      obtain rfl := Except.ok.inj compiled
      obtain rfl := Except.ok.inj ended
      exact ⟨fun vs same => Option.some.inj same ▸ .nil, nofun⟩
  | item :: items, pieces, known, compiled, ended => by
      rw [compileItems] at compiled
      rw [evalKnown] at ended
      obtain ⟨piece, pieceEq, rest⟩ := Except.bind_eq_ok_iff.1 compiled
      obtain ⟨later, laterEq, compiled⟩ := Except.bind_eq_ok_iff.1 rest
      obtain rfl := Except.ok.inj compiled
      obtain ⟨value, valueEq, ended⟩ := Except.bind_eq_ok_iff.1 ended
      have head := compile_foretells suits sound (compile_exactly_eq_ok_iff.1 pieceEq).1 valueEq
      split at ended
      · rename_i unknown
        obtain rfl := Except.ok.inj ended
        obtain rfl := null_of_isUnknown unknown
        exact ⟨nofun, fun _ => ⟨piece, by simp, head⟩⟩
      · obtain ⟨others, othersEq, ended⟩ := Except.bind_eq_ok_iff.1 ended
        obtain rfl := Except.ok.inj ended
        obtain ⟨each, unknown⟩ := compileItems_foretells suits sound laterEq othersEq
        cases others with
        | some vs => exact ⟨fun _ same => Option.some.inj same ▸ .cons head (each vs rfl), nofun⟩
        | none =>
            obtain ⟨other, member, foretells⟩ := unknown rfl
            exact ⟨nofun, fun _ => ⟨other, by simp [member], foretells⟩⟩

theorem compileConstants_foresee (suits : scope.Suits c) (sound : c.functions.Sound) :
    ∀ {items : List Term} {ks vs : List Value}, compileConstants c params items = .ok ks →
      evalItems scope items = .ok vs → List.Forall₂ Foresees ks vs
  | [], _, _, compiled, ended => by
      obtain rfl := Except.ok.inj compiled
      obtain rfl := Except.ok.inj ended
      exact .nil
  | item :: items, ks, vs, compiled, ended => by
      rw [compileConstants] at compiled
      rw [evalItems] at ended
      obtain ⟨piece, pieceEq, rest⟩ := Except.bind_eq_ok_iff.1 compiled
      obtain ⟨k, known, rest⟩ := Except.bind_eq_ok_iff.1 rest
      obtain ⟨later, laterEq, compiled⟩ := Except.bind_eq_ok_iff.1 rest
      obtain rfl := Except.ok.inj compiled
      obtain ⟨value, valueEq, ended⟩ := Except.bind_eq_ok_iff.1 ended
      obtain ⟨others, othersEq, ended⟩ := Except.bind_eq_ok_iff.1 ended
      obtain rfl := Except.ok.inj ended
      have head := compile_foretells suits sound (compile_exactly_eq_ok_iff.1 pieceEq).1 valueEq
      exact .cons (head.foreseen k (Walk.ofOption_eq_ok_iff.1 known))
        (compileConstants_foresee suits sound laterEq othersEq)

end

end Term

end RowQuery
