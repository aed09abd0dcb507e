import RowQuery.Proofs.Filling.Term

/-!
# Operations on rows whose NULLs are filled in

A term is evaluated on two rows, of which the second has values where the first has some of its
NULLs.  If the values of the operands are those on the first row with values in the place of
NULLs, then so is what an operation, a test, a conjunction or a disjunction makes of them.
-/

namespace RowQuery

open Value

namespace Scope.FillsTo

variable {scope scope' : Scope}

theorem onlyRowsNull (fills : scope.FillsTo scope') (only : scope.OnlyRowsNull) :
    scope'.OnlyRowsNull where
  arguments := fills.arguments ▸ only.arguments
  functions := fills.functions ▸ only.functions

theorem get? {row row' : Row} (cells : row.FillsTo row') {key : String} {v v' : Value}
    (found : row.get? key = some v) (found' : row'.get? key = some v') : v.FillsTo v' := by
  induction cells with
  | nil => cases found
  | @cons cell cell' _ _ head _ ih =>
      obtain ⟨k, u⟩ := cell
      obtain ⟨k', u'⟩ := cell'
      obtain ⟨rfl, filled⟩ := head
      simp only [Keyed.get?] at found found'
      split at found
      · rename_i same
        rw [if_pos same] at found'
        rw [← Option.some.inj found, ← Option.some.inj found']
        rcases filled with rfl | rfl
        · exact .null _
        · exact .same _
      · rename_i other
        rw [if_neg other] at found'
        exact ih found found'

theorem column (fills : scope.FillsTo scope') {index : Nat} {name : String} {v v' : Value}
    (ended : scope.column index name = .ok v) (ended' : scope'.column index name = .ok v') :
    v.FillsTo v' := by
  unfold Scope.column at ended ended'
  split at ended
  · cases ended
  · rename_i row here
    obtain ⟨row', here', cells⟩ := fills.rows.exists_getElem? here
    rw [here'] at ended'
    dsimp only at ended'
    split at ended
    · rename_i u found
      obtain rfl := Except.ok.inj ended
      split at ended'
      · rename_i u' found'
        obtain rfl := Except.ok.inj ended'
        exact get? cells found found'
      · cases ended'
    · cases ended

end Scope.FillsTo

namespace Term

section

variable (scope scope' : Scope)

/-- In the second scope the term has the value that it has in the first one, with values in the
place of NULLs. -/
def Keeps (t : Term) : Prop :=
  ∀ v v', t.eval scope = .ok v → t.eval scope' = .ok v' → v.FillsTo v'

end

variable {scope scope' : Scope}

/-! ## Operands -/

/-- An operation passes an unknown operand on; else the operand is known in both scopes. -/
theorem fills_strict (only : scope.OnlyRowsNull) (only' : scope'.OnlyRowsNull) {s : Term}
    (filled : s.Filled) (keeps : s.Keeps scope scope') {a a' v v' : Value}
    (aEq : s.eval scope = .ok a) (aEq' : s.eval scope' = .ok a') {rest rest' : Outcome Value}
    (ended : (if isUnknown s a then .ok .null else rest) = .ok v)
    (ended' : (if isUnknown s a' then .ok .null else rest') = .ok v')
    (step : a.FillsTo a' → a ≠ .null → rest = .ok v → rest' = .ok v' → v.FillsTo v') : v.FillsTo v' := by
  have fills := keeps a a' aEq aEq'
  rw [(isUnknown_eq only filled aEq).1] at ended
  split at ended
  · obtain rfl := Except.ok.inj ended
    exact .null _
  · rename_i known
    have known' := fills.not_null (mt isNull_iff.2 known)
    rw [(isUnknown_eq only' filled aEq').1, if_neg (mt isNull_iff.1 known')] at ended'
    exact step fills (mt isNull_iff.2 known) ended ended'

theorem fills_items {items : List Term} (keeps : ∀ s ∈ items, s.Keeps scope scope')
    {vs vs' : List Value} (ended : evalItems scope items = .ok vs)
    (ended' : evalItems scope' items = .ok vs') : List.Forall₂ Value.FillsTo vs vs' :=
  (evalItems_eq_ok_iff.1 ended).of_common (evalItems_eq_ok_iff.1 ended')
    fun s among v v' => keeps s among v v'

/-- Operands that are known in one scope are known in the other one. -/
theorem fills_known (only : scope.OnlyRowsNull) {items : List Term}
    (filled : ∀ s ∈ items, s.Filled) (keeps : ∀ s ∈ items, s.Keeps scope scope') {vs : List Value}
    {known : Option (List Value)} (ended : evalKnown scope items = .ok (some vs))
    (ended' : evalKnown scope' items = .ok known) :
    (∀ v ∈ vs, v ≠ .null) ∧ ∃ vs', known = some vs' ∧ List.Forall₂ Value.FillsTo vs vs' := by
  have each := known_of_evalKnown ended
  have notNull : ∀ v ∈ vs, v ≠ .null := by
    rintro v among rfl
    obtain ⟨s, among', vEq, isKnown⟩ := each.flip.exists_of_mem among
    rw [(isUnknown_eq only (filled s among') vEq).1] at isKnown
    cases isKnown
  refine ⟨notNull, ?_⟩
  cases known with
  | none =>
      obtain ⟨s, among, null, -⟩ := unknown_of_evalKnown ended'
      obtain ⟨v, among', vEq, -⟩ := each.exists_of_mem among
      exact absurd rfl ((keeps s among v _ vEq null).not_null (notNull v among'))
  | some vs' =>
      exact ⟨vs', rfl, fills_items keeps (evalItems_of_evalKnown ended)
        (evalItems_of_evalKnown ended')⟩

theorem fills_call (only : scope.OnlyRowsNull) {f : Function}
    {name : String} (settled : f.Settled) {operands : List Term}
    (filled : ∀ s ∈ operands, s.Filled) (keeps : ∀ s ∈ operands, s.Keeps scope scope')
    {known known' : Option (List Value)} (evaluated : evalKnown scope operands = .ok known)
    (evaluated' : evalKnown scope' operands = .ok known') {v v' : Value}
    (ended : (match known with
      | some vs => f.apply name vs
      | none => .ok .null) = .ok v)
    (ended' : (match known' with
      | some vs => f.apply name vs
      | none => .ok .null) = .ok v') : v.FillsTo v' := by
  cases known with
  | none =>
      obtain rfl := Except.ok.inj ended
      exact .null _
  | some vs =>
      obtain ⟨notNull, vs', rfl, each⟩ := fills_known only filled keeps evaluated evaluated'
      rw [settled.same name vs vs' v v' each notNull ended ended']
      exact .same v

/-! ## Tests -/

/-- Without NULL in constants a comparison is unknown if an operand is, and else it compares. -/
theorem compareValues_eq (only : scope.OnlyRowsNull) {l r : Term} (left : l.Filled)
    (right : r.Filled) {a b : Value} (op : Comparison) (aEq : l.eval scope = .ok a)
    (bEq : r.eval scope = .ok b) :
    compareValues l r op a b =
      if a.isNull || b.isNull then .ok .null else (a.compareBy op b).map .bool := by
  unfold compareValues
  rw [(isUnknown_eq only left aEq).1, (isUnknown_eq only left aEq).2,
    (isUnknown_eq only right bEq).1, (isUnknown_eq only right bEq).2]
  rfl

theorem fills_compare (only : scope.OnlyRowsNull) (only' : scope'.OnlyRowsNull) {l r : Term}
    {op : Comparison} (filled : l.Filled) (filled' : r.Filled) (left : l.Keeps scope scope')
    (right : r.Keeps scope scope') (sighted : ¬(compare l op r).Blind scope) :
    (compare l op r).Keeps scope scope' := by
  intro v v' ended ended'
  rw [eval] at ended ended'
  obtain ⟨a, aEq, ended⟩ := Except.bind_eq_ok_iff.1 ended
  obtain ⟨b, bEq, ended⟩ := Except.bind_eq_ok_iff.1 ended
  obtain ⟨a', aEq', ended'⟩ := Except.bind_eq_ok_iff.1 ended'
  obtain ⟨b', bEq', ended'⟩ := Except.bind_eq_ok_iff.1 ended'
  have first := left a a' aEq aEq'
  have second := right b b' bEq bEq'
  rw [compareValues_eq only filled filled' op aEq bEq] at ended
  rw [compareValues_eq only' filled filled' op aEq' bEq'] at ended'
  split at ended
  · obtain rfl := Except.ok.inj ended
    exact .null _
  · rename_i known
    simp only [Bool.or_eq_true, isNull_iff, not_or] at known
    rw [if_neg] at ended'
    · obtain ⟨answer, compared, rfl⟩ := Except.map_eq_ok_iff.1 ended
      obtain ⟨answer', compared', rfl⟩ := Except.map_eq_ok_iff.1 ended'
      have same := first.compareBy second known.1 known.2
        (fun equality mayEqual => by
          by_contra differ
          exact sighted (.compared aEq bEq known.1 known.2 equality mayEqual differ))
        compared compared'
      rw [same]
      exact .same _
    · simp only [Bool.or_eq_true, isNull_iff, not_or]
      exact ⟨first.not_null known.1, second.not_null known.2⟩

/-- A NULL among the members of a collection comes from a row. -/
theorem origin_of_null (only : scope.OnlyRowsNull) {collection : Term} (filled : collection.Filled)
    {members : List Value} (ended : collection.eval scope = .ok (.list members)) :
    ∀ pair ∈ members.zip (memberOrigins collection members), pair.1 = .null → pair.2 = true := by
  by_cases listed : ∃ items, collection = tuple items
  · obtain ⟨items, rfl⟩ := listed
    rw [eval] at ended
    obtain ⟨vs, evaluated, ended⟩ := Except.bind_eq_ok_iff.1 ended
    obtain rfl := Value.list.inj (Except.ok.inj ended)
    intro pair among null
    change pair ∈ vs.zip (items.map readsRow) at among
    rw [List.zip_map_right] at among
    obtain ⟨⟨v, s⟩, beside, rfl⟩ := List.mem_map.1 among
    obtain rfl : v = .null := null
    have vEq := (List.forall₂_iff_zip.1 (evalItems_eq_ok_iff.1 evaluated).flip).2 beside
    by_contra closed
    exact (filled_of_closed only s (filled.part (List.of_mem_zip beside).2)
      (by simpa using closed) vEq).not_null rfl
  · have origins : memberOrigins collection members = members.map fun _ => collection.readsRow := by
      cases collection <;> first | rfl | exact absurd ⟨_, rfl⟩ listed
    intro pair among null
    rw [origins, List.zip_map_right] at among
    obtain ⟨⟨v, u⟩, beside, rfl⟩ := List.mem_map.1 among
    obtain rfl : v = .null := null
    by_contra closed
    cases filled_of_closed only collection filled (by simpa using closed) ended with
    | list each => exact (each _ (List.of_mem_zip beside).1).not_null rfl
    | single _ _ notList => exact notList rfl

/-- Without NULL in constants an item is looked for among members whose NULLs are all unknown. -/
theorem membership_of_list (only : scope.OnlyRowsNull) {item collection : Term}
    (filled : item.Filled) (filled' : collection.Filled) {a : Value} {members : List Value}
    (aEq : item.eval scope = .ok a) (ended : collection.eval scope = .ok (.list members)) :
    membership item collection a (.list members) = .ok (foundAmong a members) := by
  have origin := origin_of_null only filled' ended
  have items : (members.zip (memberOrigins collection members)).map Prod.fst = members :=
    List.map_fst_zip (length_memberOrigins ended).ge
  have equal : (members.zip (memberOrigins collection members)).any (fun p => p.1.looseEq a) =
      members.any fun v => v.looseEq a := by
    conv_rhs => rw [← items]
    rw [List.any_map]
    rfl
  have null : (members.zip (memberOrigins collection members)).any (fun p => p.1.isNull && p.2) =
      members.any isNull := by
    conv_rhs => rw [← items]
    rw [List.any_map]
    rw [Bool.eq_iff_iff, List.any_eq_true, List.any_eq_true]
    refine exists_congr fun pair => and_congr_right fun among => ?_
    change (pair.1.isNull && pair.2) = true ↔ pair.1.isNull = true
    by_cases isNull_ : pair.1 = .null
    · rw [origin pair among isNull_, Bool.and_true]
    · rw [Bool.eq_false_iff.2 (mt isNull_iff.1 isNull_), Bool.false_and]
  have literal : (members.zip (memberOrigins collection members)).any
      (fun p => p.1.isNull && !p.2) = false := by
    rw [List.any_eq_false]
    intro pair among isLiteral
    obtain ⟨isNull_, closed⟩ := Bool.and_eq_true_iff.1 isLiteral
    rw [origin pair among (isNull_iff.1 isNull_)] at closed
    cases closed
  have unfolded (unknown : Bool) (pairs : List (Value × Bool)) :
      amongMembers unknown a pairs =
        if unknown then if pairs.any fun p => p.1.isNull && !p.2 then .bool true else .null
        else if pairs.any fun p => p.1.looseEq a then .bool true
        else if pairs.any fun p => p.1.isNull && p.2 then .null
        else .bool false := rfl
  change Except.ok (amongMembers (isUnknown item a) a _) = _
  rw [(isUnknown_eq only filled aEq).1, unfolded, equal, null, literal]
  rfl

/-- What is no list contains an item or is unknown. -/
theorem membership_of_single {item collection : Term} {a w : Value} (single : w.kind ≠ .list) :
    membership item collection a w =
      if isUnknown collection w then .ok .null
      else if isUnknown item a then .ok .null else (w.contains a).map .bool := by
  cases w <;> first | rfl | exact absurd rfl single

theorem fills_membership (only : scope.OnlyRowsNull) (only' : scope'.OnlyRowsNull)
    {item collection : Term} {negated : Bool} (filled : item.Filled) (filled' : collection.Filled)
    (needle : item.Keeps scope scope') (whole : collection.Keeps scope scope')
    (sighted : ¬(member item collection negated).Blind scope) {a a' w w' v v' : Value}
    (aEq : item.eval scope = .ok a) (aEq' : item.eval scope' = .ok a')
    (wEq : collection.eval scope = .ok w) (wEq' : collection.eval scope' = .ok w')
    (ended : membership item collection a w = .ok v)
    (ended' : membership item collection a' w' = .ok v') : v.FillsTo v' := by
  have first := needle a a' aEq aEq'
  by_cases listed : w.kind = .list
  · obtain ⟨members, rfl⟩ := exists_items_of_kind listed
    obtain ⟨members', rfl, each⟩ := (whole _ w' wEq wEq').exists_items
    rw [membership_of_list only filled filled' aEq wEq] at ended
    rw [membership_of_list only' filled filled' aEq' wEq'] at ended'
    obtain rfl := Except.ok.inj ended
    obtain rfl := Except.ok.inj ended'
    refine first.foundAmong each fun known noNull absent m among => ?_
    by_contra mayEqual
    exact sighted (.contained aEq wEq known noNull absent ⟨m, among, by simpa using mayEqual⟩)
  · have single : w'.kind ≠ .list ∨ w = .null := by
      by_cases null : w = .null
      · exact .inr null
      · exact .inl ((whole w w' wEq wEq').kind null ▸ listed)
    rcases single with single | rfl
    · rw [membership_of_single listed] at ended
      rw [membership_of_single single] at ended'
      refine fills_strict only only' filled' whole wEq wEq' ended ended'
        fun second known ended ended' => ?_
      obtain rfl := second.eq_of_not_list known listed
      refine fills_strict only only' filled needle aEq aEq' ended ended'
        fun first known ended ended' => ?_
      obtain ⟨found, contained, rfl⟩ := Except.map_eq_ok_iff.1 ended
      obtain ⟨found', contained', rfl⟩ := Except.map_eq_ok_iff.1 ended'
      rw [first.contains known listed contained contained']
      exact .same _
    · unfold membership at ended
      rw [(isUnknown_eq only filled' wEq).1] at ended
      obtain rfl := Except.ok.inj ended
      exact .null _

theorem fills_negateIf (negated : Bool) {v v' : Value} (fills : v.FillsTo v') (test : v.Fits .bool) :
    (negateIf negated v).FillsTo (negateIf negated v') := by
  cases fills with
  | null => exact .null _
  | same => exact .same _
  | list => rcases test with test | test <;> cases test

theorem fills_negation {v v' : Value} (fills : v.FillsTo v') :
    (negation v).FillsTo (negation v') := by
  by_cases null : v = .null
  · rw [null]
    exact .null _
  · have known {u : Value} (notNull : u ≠ .null) : negation u = .bool !u.truthy := by
      cases u <;> first | rfl | exact absurd rfl notNull
    rw [known null, known (fills.not_null null), fills.truthy null]
    exact .same _

/-! ## Conjunctions and disjunctions -/

/-- A conjunction with an unknown part does not hold. -/
theorem evalAll_undecided {items : List Term} {v : Value}
    (ended : evalAll scope true items = .ok v) : v.FillsTo (.bool false) := by
  induction items with
  | nil =>
      obtain rfl := Except.ok.inj ended
      exact .null _
  | cons item items ih =>
      rw [evalAll] at ended
      obtain ⟨a, -, ended⟩ := Except.bind_eq_ok_iff.1 ended
      split at ended
      · exact ih ended
      · split at ended
        · exact ih ended
        · obtain rfl := Except.ok.inj ended
          exact .same _

/-- A disjunction with an unknown part is not refuted. -/
theorem evalAny_undecided {items : List Term} {v : Value}
    (ended : evalAny scope true items = .ok v) : v.FillsTo (.bool true) := by
  induction items with
  | nil =>
      obtain rfl := Except.ok.inj ended
      exact .null _
  | cons item items ih =>
      rw [evalAny] at ended
      obtain ⟨a, -, ended⟩ := Except.bind_eq_ok_iff.1 ended
      split at ended
      · exact ih ended
      · split at ended
        · obtain rfl := Except.ok.inj ended
          exact .same _
        · exact ih ended

-- The induction is on the parts.  What is undecided in the second scope was undecided before.

theorem fills_evalAll {items : List Term} (keeps : ∀ s ∈ items, s.Keeps scope scope')
    {undecided undecided' : Bool} (before : undecided' = true → undecided = true) {v v' : Value}
    (ended : evalAll scope undecided items = .ok v)
    (ended' : evalAll scope' undecided' items = .ok v') : v.FillsTo v' := by
  induction items generalizing undecided undecided' with
  | nil =>
      obtain rfl := Except.ok.inj ended
      obtain rfl := Except.ok.inj ended'
      cases undecided with
      | true => exact .null _
      | false =>
          rw [Bool.eq_false_iff.2 fun open_ => Bool.false_ne_true (before open_)]
          exact .same _
  | cons item items ih =>
      rw [List.forall_mem_cons] at keeps
      rw [evalAll] at ended ended'
      obtain ⟨a, aEq, ended⟩ := Except.bind_eq_ok_iff.1 ended
      obtain ⟨a', aEq', ended'⟩ := Except.bind_eq_ok_iff.1 ended'
      have fills := keeps.1 a a' aEq aEq'
      by_cases null : a = .null
      · rw [if_pos (isNull_iff.2 null)] at ended
        split at ended'
        · exact ih keeps.2 (fun _ => rfl) ended ended'
        · split at ended'
          · exact ih keeps.2 (fun _ => rfl) ended ended'
          · obtain rfl := Except.ok.inj ended'
            exact evalAll_undecided ended
      · rw [if_neg (mt isNull_iff.1 null)] at ended
        rw [if_neg (mt isNull_iff.1 (fills.not_null null)), fills.truthy null] at ended'
        split at ended
        · rename_i holds
          rw [if_pos holds] at ended'
          exact ih keeps.2 before ended ended'
        · rename_i refuted
          rw [if_neg refuted] at ended'
          exact .of_eq ended ended'

theorem fills_evalAny {items : List Term} (keeps : ∀ s ∈ items, s.Keeps scope scope')
    {undecided undecided' : Bool} (before : undecided' = true → undecided = true) {v v' : Value}
    (ended : evalAny scope undecided items = .ok v)
    (ended' : evalAny scope' undecided' items = .ok v') : v.FillsTo v' := by
  induction items generalizing undecided undecided' with
  | nil =>
      obtain rfl := Except.ok.inj ended
      obtain rfl := Except.ok.inj ended'
      cases undecided with
      | true => exact .null _
      | false =>
          rw [Bool.eq_false_iff.2 fun open_ => Bool.false_ne_true (before open_)]
          exact .same _
  | cons item items ih =>
      rw [List.forall_mem_cons] at keeps
      rw [evalAny] at ended ended'
      obtain ⟨a, aEq, ended⟩ := Except.bind_eq_ok_iff.1 ended
      obtain ⟨a', aEq', ended'⟩ := Except.bind_eq_ok_iff.1 ended'
      have fills := keeps.1 a a' aEq aEq'
      by_cases null : a = .null
      · rw [if_pos (isNull_iff.2 null)] at ended
        split at ended'
        · exact ih keeps.2 (fun _ => rfl) ended ended'
        · split at ended'
          · obtain rfl := Except.ok.inj ended'
            exact evalAny_undecided ended
          · exact ih keeps.2 (fun _ => rfl) ended ended'
      · rw [if_neg (mt isNull_iff.1 null)] at ended
        rw [if_neg (mt isNull_iff.1 (fills.not_null null)), fills.truthy null] at ended'
        split at ended
        · rename_i holds
          rw [if_pos holds] at ended'
          exact .of_eq ended ended'
        · rename_i refuted
          rw [if_neg refuted] at ended'
          exact ih keeps.2 before ended ended'

end Term

end RowQuery
