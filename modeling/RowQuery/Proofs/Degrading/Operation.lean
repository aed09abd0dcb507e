import RowQuery.Proofs.Degrading.Literal
import RowQuery.Proofs.Filling.Function

/-!
# Operations on constants that can be computed

Where an operation ends on the values of its operands it ends on their constants, too, which are
those values up to truth values and unknown ones.  So the steps of the compiler fail for constants
only if the evaluation does, or for want of a literal.
-/

namespace RowQuery

open Value

namespace Value.Foresees

variable {k k' v v' u : Value}

theorem eq_of_plain_value (foresees : k.Foresees v) (plain : v.Plain) : k = v := by
  cases foresees with
  | same => rfl
  | truth _ fits =>
      rcases fits with rfl | kind
      · exact absurd rfl plain.notNull
      · exact absurd kind plain.notBool
  | list => exact absurd rfl plain.notList

theorem eq_of_forall_plain_value {ks vs : List Value} (each : List.Forall₂ Foresees ks vs)
    (plain : ∀ v ∈ vs, Plain v) : ks = vs := by
  induction each with
  | nil => rfl
  | cons head _ ih =>
      rw [List.forall_mem_cons] at plain
      rw [head.eq_of_plain_value plain.1, ih plain.2]

theorem kind_of_known (foresees : k.Foresees v) (known : v ≠ null) : v.kind = k.kind :=
  foresees.fits.resolve_left known

theorem not_null (foresees : k.Foresees v) (known : v ≠ null) : k ≠ null := by
  rintro rfl
  cases foresees with
  | same => exact known rfl

/-! ## Operations -/

theorem arithmetic_ends {op : Arithmetic} (left : k.Foresees v) (right : k'.Foresees v')
    (ended : v.arithmetic op v' = .ok u) : k.arithmetic op k' = .ok u := by
  obtain ⟨plain, plain'⟩ := plain_of_arithmetic ended
  rwa [left.eq_of_plain_value plain, right.eq_of_plain_value plain']

theorem negate_ends (foresees : k.Foresees v) (ended : v.negate = .ok u) : k.negate = .ok u := by
  rwa [foresees.eq_of_plain_value (kind_of_negate ended).2]

theorem field_ends {name : String} (foresees : k.Foresees v) (ended : v.field name = .ok u) :
    k.field name = .ok u := by
  rwa [foresees.eq_of_plain_value (kind_of_field ended).2]

theorem item_ends (whole : k.Foresees v) (key : k'.Foresees v') (ended : v.item v' = .ok u) :
    ∃ r, k.item k' = .ok r := by
  obtain ⟨solid, plain⟩ := plain_of_item ended
  rw [key.eq_of_plain_value plain]
  cases whole with
  | same => exact ⟨u, ended⟩
  | truth _ fits => exact absurd (fits.kind_of_solid solid) solid.notBool
  | @list items items' each =>
      have found := item_eq_ok ended
      cases v' with
      | int index =>
          obtain ⟨n, stands, elsewhere⟩ := itemAt?_eq_some found
          obtain ⟨r, stands', -⟩ := each.flip.exists_getElem? stands
          have found' : (Value.list items).item? (.int index) = some r :=
            (elsewhere _ items each.length_eq).trans stands'
          exact ⟨r, by rw [Value.item, found']⟩
      | _ => cases found

/-- An equality always has an answer. -/
theorem compareBy_of_equality {a b : Value} {op : Comparison} (equality : op.isEquality = true) :
    ∃ answer, a.compareBy op b = .ok answer := by
  unfold compareBy
  split
  · exact ⟨_, if_pos equality⟩
  · split
    · exact ⟨_, rfl⟩
    · exact ⟨_, if_pos equality⟩

theorem compareBy_ends {op : Comparison} (left : k.Foresees v) (right : k'.Foresees v')
    {answer : Bool} (ended : v.compareBy op v' = .ok answer) :
    ∃ answer', k.compareBy op k' = .ok answer' := by
  by_cases equality : op.isEquality = true
  · exact compareBy_of_equality equality
  · -- The order is asked for, so the values have one, and the kinds of the constants.
    have known : v ≠ null ∧ v' ≠ null := by
      constructor <;> rintro rfl <;> unfold compareBy at ended
      · rw [if_pos (by simp [isNull]), compareNull, if_neg equality] at ended
        cases ended
      · rw [if_pos (by simp [isNull]), compareNull, if_neg equality] at ended
        cases ended
    rw [compareBy_of_known known.1 known.2, left.kind_of_known known.1,
      right.kind_of_known known.2] at ended
    rw [compareBy_of_known (left.not_null known.1) (right.not_null known.2)]
    split at ended
    · rename_i accepted
      rw [if_pos accepted]
      exact ⟨_, rfl⟩
    · rw [compareUnrelated, if_neg equality] at ended
      cases ended

/-- A collection that can be asked for a value can be asked for its constant. -/
theorem contains_ends (whole : k.Foresees v) (item : k'.Foresees v') {found : Bool}
    (ended : v.contains v' = .ok found) : ∃ found', k.contains k' = .ok found' := by
  by_cases listed : k.kind = .list
  · obtain ⟨items, rfl⟩ := exists_items_of_kind listed
    exact ⟨_, rfl⟩
  · have single : v.Plain := by
      refine ⟨⟨?_, ?_⟩, ?_⟩
      · intro null
        cases v <;> first | (cases null; done) | cases ended
      · intro isBool
        cases v <;> first | (cases isBool; done) | cases ended
      · intro listed'
        have known : v ≠ null := by
          rintro rfl
          cases listed'
        exact listed (whole.kind_of_known known ▸ listed')
    rw [whole.eq_of_plain_value single]
    have asText {s : String} (text : v' = .text s) : ∃ found', v.contains k' = .ok found' := by
      subst text
      rw [item.eq_of_plain_value (Function.plain_text s)]
      exact ⟨found, ended⟩
    cases v with
    | text s =>
        cases v' with
        | text piece => exact asText rfl
        | _ => cases ended
    | bytes b =>
        cases v' with
        | bytes piece =>
            rw [item.eq_of_plain_value ⟨⟨nofun, nofun⟩, nofun⟩]
            exact ⟨found, ended⟩
        | _ => cases ended
    | json document =>
        cases document with
        | array parts => exact ⟨_, rfl⟩
        | object members =>
            cases v' with
            | text key => exact asText rfl
            | _ => cases ended
        | _ => cases ended
    | list => exact absurd rfl single.notList
    | _ => cases ended

end Value.Foresees

/-! ## Calls -/

/-- A function that ends on values ends on their constants. -/
theorem Function.Usual.apply_ends {f : Function} (usual : f.Usual) {name : String}
    {ks vs : List Value} {v : Value} (foldable : f.isFoldable = true)
    (each : List.Forall₂ Foresees ks vs) (ended : f.apply name vs = .ok v) :
    ∃ k, f.apply name ks = .ok k := by
  cases usual with
  | simple simple =>
      rw [Foresees.eq_of_forall_plain_value each (simple name vs v ended).2]
      exact ⟨v, ended⟩
  | clock => cases foldable
  | length =>
      have computed := Function.compute_eq_ok rfl ended
      split at computed
      · rw [Foresees.eq_of_forall_plain_value each (by simp [Function.plain_text])]
        exact ⟨v, ended⟩
      · rw [Foresees.eq_of_forall_plain_value each
          (by simpa using (⟨⟨nofun, nofun⟩, nofun⟩ : (Value.bytes _).Plain))]
        exact ⟨v, ended⟩
      · obtain ⟨k, _, foresees, empty, rfl⟩ := List.forall₂_cons_right_iff.1 each
        obtain rfl := List.forall₂_nil_right_iff.1 empty
        cases foresees with
        | same => exact ⟨v, ended⟩
        | truth _ fits => rcases fits with fits | fits <;> cases fits
        | list items => exact ⟨_, rfl⟩
      · cases computed

/-! ## Steps of the compiler -/

namespace CompileContext

open Walk BuiltinDialect

variable {b : BuiltinDialect} {c : CompileContext} {l r p : Piece}

theorem degrades_folded (builtin : c.dialect = b.dialect) {result : Outcome Value} {k : Value}
    (known : result = .ok k) : (c.folded result).Degrades :=
  (degrades_ofOutcome known).bind fun _ _ => degrades_literal builtin _

theorem degrades_test (sql : String) (aggregate exact_ : Bool) :
    (c.test sql aggregate exact_).Degrades :=
  (degrades_ofOption _).bind fun _ _ => degrades_ok _

theorem degrades_asCondition (p : Piece) : (c.asCondition p).Degrades := by
  unfold asCondition
  split
  · exact degrades_ok p
  · split
    · exact degrades_truth c _
    · split
      · rename_i ofBool
        have encoded : p.fragment.encode c.dialect (.bool true) =
            .ok (Codec.encodeBool c.dialect true p.fragment.type) := by
          rw [Sql.Fragment.encode, Sql.Fragment.codec, ofBool]
          rfl
        exact (degrades_ofOutcome encoded).bind fun _ _ => degrades_test _ _ _
      · exact degrades_noForm

theorem degrades_column {index : Nat} {key : String} {binding : Binding} {column : Column}
    (bound : c.bindings[index]? = some binding) (listed : binding.table.column? key = some column) :
    (c.column index key).Degrades := by
  have found : binding.table.lookup key = .ok column := by
    rw [Table.lookup, listed]
  unfold CompileContext.column
  rw [bound]
  exact (degrades_ofOutcome found).bind fun _ _ => degrades_ok _

theorem degrades_arithmetic (builtin : c.dialect = b.dialect) {op : Arithmetic}
    (folds : ∀ k k', l.fragment.constant = some k → r.fragment.constant = some k' →
      ∃ u, k.arithmetic op k' = .ok u) : (c.arithmetic l op r).Degrades := by
  unfold arithmetic
  split
  · rename_i k k' known known'
    obtain ⟨u, folded⟩ := folds k k' known known'
    exact degrades_folded builtin folded
  · refine (degrades_ofOption _).bind fun kind _ => (degrades_ofOption _).bind fun sql _ => ?_
    dsimp only
    split
    · exact degrades_ok _
    · split
      · exact degrades_ok _
      · exact (degrades_ofOption _).bind fun _ _ => degrades_ok _

theorem degrades_negative (builtin : c.dialect = b.dialect)
    (folds : ∀ k, p.fragment.constant = some k → ∃ u, k.negate = .ok u) :
    (c.negative p).Degrades := by
  unfold negative
  split
  · rename_i k known
    obtain ⟨u, folded⟩ := folds k known
    exact degrades_folded builtin folded
  · split
    · exact degrades_ok _
    · exact degrades_noForm

theorem degrades_field (builtin : c.dialect = b.dialect) {name : String}
    (folds : ∀ k, p.fragment.constant = some k → ∃ u, k.field name = .ok u) :
    (c.field p name).Degrades := by
  unfold field
  split
  · rename_i k known
    obtain ⟨u, folded⟩ := folds k known
    exact degrades_folded builtin folded
  · exact (degrades_ofOption _).bind fun _ _ => (degrades_ofOption _).bind fun _ _ => degrades_ok _

theorem degrades_call (builtin : c.dialect = b.dialect) {f : Function} {name : String}
    {pieces : List Piece}
    (folds : ∀ ks, (pieces.mapM fun p => p.fragment.constant) = some ks → f.isFoldable = true →
      ∃ u, f.apply name ks = .ok u) : (c.call name f pieces).Degrades := by
  have rendered : (call.rendered c f pieces).Degrades :=
    (degrades_ofOption _).bind fun _ _ => degrades_ok _
  unfold call
  split
  · rename_i ks known
    split
    · rename_i foldable
      obtain ⟨u, folded⟩ := folds ks known foldable
      exact degrades_folded builtin folded
    · exact rendered
  · exact rendered

theorem degrades_compare {shown : String} {op : Comparison}
    (ordered : (l.fragment.isNull || r.fragment.isNull) = true → op.isEquality = true)
    (folds : ∀ k k', l.fragment.constant = some k → r.fragment.constant = some k' →
      ∃ answer, k.compareBy op k' = .ok answer) : (c.compare shown l op r).Degrades := by
  unfold compare
  split
  · rename_i refused
    rw [Bool.and_eq_true] at refused
    rw [ordered refused.1] at refused
    cases refused.2
  · split
    · rename_i k k' known known'
      obtain ⟨answer, compared⟩ := folds k k' known known'
      exact (degrades_ofOutcome compared).bind fun _ _ => degrades_truth c _
    · unfold compareOpen
      dsimp only
      split
      · exact degrades_test _ _ _
      · split
        · exact degrades_noForm
        · exact (degrades_ofOption _).bind fun _ _ => degrades_test _ _ _

theorem degrades_memberFragments (item : Sql.Fragment) (members : List Piece) :
    (c.memberFragments item members).Degrades := by
  induction members with
  | nil => exact degrades_ok _
  | cons member members ih =>
      rw [memberFragments]
      split
      · exact ih
      · split
        · exact degrades_noForm
        · exact ih.bind fun _ _ => degrades_ok _

theorem degrades_member (item : Piece) (members : List Piece) (negated : Bool) :
    (c.member item members negated).Degrades := by
  unfold member
  split
  · exact degrades_truth c _
  · exact (degrades_memberFragments _ _).bind fun _ _ => degrades_test _ _ _

theorem degrades_contains (builtin : c.dialect = b.dialect) {item collection : Piece} (negated : Bool)
    (folds : ∀ k w, item.fragment.constant = some k → collection.fragment.constant = some w →
      ∃ found, w.contains k = .ok found) : (c.contains item collection negated).Degrades := by
  unfold contains
  split
  · rename_i k w known known'
    obtain ⟨found, contained⟩ := folds k w known known'
    exact (degrades_ofOutcome contained).bind fun _ _ => degrades_truth c _
  · exact (degrades_mapM fun v _ => degrades_literal builtin v).bind
      fun _ _ => degrades_member _ _ _
  · split
    · refine (degrades_ofOption _).bind fun test _ => ?_
      split
      · exact degrades_test _ _ _
      · split
        · exact degrades_test _ _ _
        · exact degrades_noForm
    · exact degrades_noForm

theorem degrades_negation (p : Piece) : (c.negation p).Degrades := by
  unfold negation
  split
  · exact degrades_truth c _
  · exact degrades_test _ _ _

theorem degrades_junction (parts : List (Option Piece)) (conjunction : Bool) :
    (c.junction parts conjunction).Degrades := by
  unfold junction
  split
  · exact degrades_truth c _
  · exact degrades_test _ _ _

end CompileContext

end RowQuery
