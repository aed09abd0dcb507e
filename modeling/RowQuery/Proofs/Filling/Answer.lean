import RowQuery.Proofs.Filling.Step

/-!
# Definite answers

By induction on the term its value on rows whose NULLs are filled in is that on the rows as they
were, with values in the place of NULLs, as long as no test in it is blind for them.  So a truth
value stays.  What reads a NULL in a place that hands it on is unknown.
-/

namespace RowQuery

open Value

namespace Term

variable {scope scope' : Scope}

/-! ## All terms -/

/-- What one step of the evaluation makes of values with NULLs it makes of them filled in, if this
holds of the parts and the term is not blind for NULLs. -/
theorem keeps_of_parts (only : scope.OnlyRowsNull) (fills : scope.FillsTo scope') {t : Term}
    (filled : t.Filled) (sighted : ¬t.Blind scope) (each : ∀ s ∈ t.parts, s.Keeps scope scope') :
    t.Keeps scope scope' := by
  have only' := fills.onlyRowsNull only
  have part (s : Term) (among : s ∈ t.parts) := filled.part among
  intro v v' ended ended'
  cases t with
  | param index => cases ended
  | field target name =>
      by_cases column : ∃ i, target = param i
      · obtain ⟨i, rfl⟩ := column
        exact fills.column ended ended'
      · have noColumn : ∀ i, target ≠ param i := fun i same => column ⟨i, same⟩
        rw [eval_field _ noColumn] at ended ended'
        obtain ⟨a, aEq, ended⟩ := Except.bind_eq_ok_iff.1 ended
        obtain ⟨a', aEq', ended'⟩ := Except.bind_eq_ok_iff.1 ended'
        exact fills_strict only only' (part target (by simp [parts])) (each target (by simp [parts]))
          aEq aEq' ended ended' fun whole _ => whole.field
  | constant value => exact .of_eq ended ended'
  | argument name =>
      change argumentValue scope.arguments name = .ok v at ended
      change argumentValue scope'.arguments name = .ok v' at ended'
      rw [fills.arguments] at ended'
      exact .of_eq ended ended'
  | subscript target key =>
      rw [eval] at ended ended'
      obtain ⟨a, aEq, ended⟩ := Except.bind_eq_ok_iff.1 ended
      obtain ⟨a', aEq', ended'⟩ := Except.bind_eq_ok_iff.1 ended'
      refine fills_strict only only' (part target (by simp [parts])) (each target (by simp [parts]))
        aEq aEq' ended ended' fun whole _ ended ended' => ?_
      obtain ⟨b, bEq, ended⟩ := Except.bind_eq_ok_iff.1 ended
      obtain ⟨b', bEq', ended'⟩ := Except.bind_eq_ok_iff.1 ended'
      exact fills_strict only only' (part key (by simp [parts])) (each key (by simp [parts]))
        bEq bEq' ended ended' fun index _ => whole.item index
  | tuple items =>
      rw [eval] at ended ended'
      obtain ⟨vs, evaluated, ended⟩ := Except.bind_eq_ok_iff.1 ended
      obtain ⟨vs', evaluated', ended'⟩ := Except.bind_eq_ok_iff.1 ended'
      obtain rfl := Except.ok.inj ended
      obtain rfl := Except.ok.inj ended'
      exact .list (fills_items each evaluated evaluated')
  | call name operands =>
      rw [eval] at ended ended'
      obtain ⟨f, found, ended⟩ := Except.bind_eq_ok_iff.1 ended
      obtain ⟨f', found', ended'⟩ := Except.bind_eq_ok_iff.1 ended'
      obtain rfl : f = f' := by
        have found' := function_eq_ok found'
        rw [fills.functions, function_eq_ok found] at found'
        exact Option.some.inj found'
      obtain ⟨known, evaluated, ended⟩ := Except.bind_eq_ok_iff.1 ended
      obtain ⟨known', evaluated', ended'⟩ := Except.bind_eq_ok_iff.1 ended'
      exact fills_call only (only.functions.functions name f (function_eq_ok found)).settled part each
        evaluated evaluated' ended ended'
  | method target name operands =>
      rw [eval_method] at ended ended'
      obtain ⟨f, found, ended⟩ := Except.bind_eq_ok_iff.1 ended
      obtain ⟨f', found', ended'⟩ := Except.bind_eq_ok_iff.1 ended'
      obtain rfl : f = f' := by
        have found' := method_eq_ok found'
        rw [fills.functions, method_eq_ok found] at found'
        exact Option.some.inj found'
      obtain ⟨known, evaluated, ended⟩ := Except.bind_eq_ok_iff.1 ended
      obtain ⟨known', evaluated', ended'⟩ := Except.bind_eq_ok_iff.1 ended'
      exact fills_call only (only.functions.methods name f (method_eq_ok found)).settled part each
        evaluated evaluated' ended ended'
  | compare l op r =>
      exact fills_compare only only' (part l (by simp [parts])) (part r (by simp [parts]))
        (each l (by simp [parts])) (each r (by simp [parts])) sighted v v' ended ended'
  | member item collection negated =>
      rw [eval] at ended ended'
      obtain ⟨a, aEq, ended⟩ := Except.bind_eq_ok_iff.1 ended
      obtain ⟨w, wEq, ended⟩ := Except.bind_eq_ok_iff.1 ended
      obtain ⟨found, among, ended⟩ := Except.bind_eq_ok_iff.1 ended
      obtain ⟨a', aEq', ended'⟩ := Except.bind_eq_ok_iff.1 ended'
      obtain ⟨w', wEq', ended'⟩ := Except.bind_eq_ok_iff.1 ended'
      obtain ⟨found', among', ended'⟩ := Except.bind_eq_ok_iff.1 ended'
      obtain rfl := Except.ok.inj ended
      obtain rfl := Except.ok.inj ended'
      have answers := fills_membership only only' (part item (by simp [parts]))
        (part collection (by simp [parts])) (each item (by simp [parts]))
        (each collection (by simp [parts])) sighted aEq aEq' wEq wEq' among among'
      exact fills_negateIf negated answers (fits_membership among)
  | arithmetic l op r =>
      rw [eval] at ended ended'
      obtain ⟨a, aEq, ended⟩ := Except.bind_eq_ok_iff.1 ended
      obtain ⟨a', aEq', ended'⟩ := Except.bind_eq_ok_iff.1 ended'
      refine fills_strict only only' (part l (by simp [parts])) (each l (by simp [parts]))
        aEq aEq' ended ended' fun left _ ended ended' => ?_
      obtain ⟨b, bEq, ended⟩ := Except.bind_eq_ok_iff.1 ended
      obtain ⟨b', bEq', ended'⟩ := Except.bind_eq_ok_iff.1 ended'
      exact fills_strict only only' (part r (by simp [parts])) (each r (by simp [parts]))
        bEq bEq' ended ended' fun right _ => left.arithmetic right
  | all items =>
      rw [eval] at ended ended'
      exact fills_evalAll each id ended ended'
  | any items =>
      rw [eval] at ended ended'
      exact fills_evalAny each id ended ended'
  | not inner =>
      rw [eval] at ended ended'
      obtain ⟨a, aEq, ended⟩ := Except.bind_eq_ok_iff.1 ended
      obtain ⟨a', aEq', ended'⟩ := Except.bind_eq_ok_iff.1 ended'
      obtain rfl := Except.ok.inj ended
      obtain rfl := Except.ok.inj ended'
      exact fills_negation (each inner (by simp [parts]) a a' aEq aEq')
  | negate inner =>
      rw [eval] at ended ended'
      obtain ⟨a, aEq, ended⟩ := Except.bind_eq_ok_iff.1 ended
      obtain ⟨a', aEq', ended'⟩ := Except.bind_eq_ok_iff.1 ended'
      exact fills_strict only only' (part inner (by simp [parts])) (each inner (by simp [parts]))
        aEq aEq' ended ended' fun whole _ => whole.negate
  | named inner name =>
      rw [eval] at ended ended'
      exact each inner (by simp [parts]) v v' ended ended'

/-- A term in which no test is blind for NULLs keeps its value, up to NULLs that are filled in. -/
theorem keeps_of_sighted (only : scope.OnlyRowsNull) (fills : scope.FillsTo scope') (t : Term)
    (filled : t.Filled) (sighted : ∀ s : Term, s.Within t → ¬s.Blind scope) :
    t.Keeps scope scope' := by
  refine keeps_of_parts only fills filled (sighted t (.inl rfl)) fun s among => ?_
  exact keeps_of_sighted only fills s (filled.part among)
    fun u within => sighted u (within.of_part among)
termination_by t
decreasing_by exact sizeOf_lt_of_mem_parts among

/-! ## Unknown values -/

theorem null_of_strict (only : scope.OnlyRowsNull) {s : Term} (filled : s.Filled) {v : Value}
    (aEq : s.eval scope = .ok .null) {rest : Outcome Value}
    (ended : (if isUnknown s .null then .ok .null else rest) = .ok v) : v = .null := by
  rw [(isUnknown_eq only filled aEq).1] at ended
  exact (Except.ok.inj ended).symm

/-- A call with an unknown operand is unknown. -/
theorem null_of_call (only : scope.OnlyRowsNull) {f : Function} {name : String} {s : Term}
    {operands : List Term} (filled : s.Filled) (among : s ∈ operands)
    (unknown : ∀ w, s.eval scope = .ok w → w = .null) {known : Option (List Value)}
    (evaluated : evalKnown scope operands = .ok known) {v : Value}
    (ended : (match known with
      | some vs => f.apply name vs
      | none => .ok .null) = .ok v) : v = .null := by
  cases known with
  | none => exact (Except.ok.inj ended).symm
  | some vs =>
      obtain ⟨w, -, wEq, isKnown⟩ := (known_of_evalKnown evaluated).exists_of_mem among
      rw [(isUnknown_eq only filled wEq).1, unknown w wEq] at isKnown
      cases isKnown

theorem null_of_membership (only : scope.OnlyRowsNull) {item collection : Term}
    (filled : item.Filled) (filled' : collection.Filled) {a w v : Value}
    (aEq : item.eval scope = .ok a) (wEq : collection.eval scope = .ok w)
    (unknown : a = .null ∨ w = .null) (ended : membership item collection a w = .ok v) :
    v = .null := by
  by_cases listed : w.kind = .list
  · obtain ⟨members, rfl⟩ := exists_items_of_kind listed
    obtain rfl := unknown.resolve_right nofun
    rw [membership_of_list only filled filled' aEq wEq] at ended
    exact (Except.ok.inj ended).symm
  · rw [membership_of_single listed] at ended
    by_cases null : w = .null
    · subst null
      exact null_of_strict only filled' wEq ended
    · obtain rfl := unknown.resolve_right null
      rw [isUnknown_of_known collection null] at ended
      exact null_of_strict only filled aEq ended

/-- A term that reads a NULL of a row in a strict place is unknown. -/
theorem null_of_handsNull (only : scope.OnlyRowsNull) {t : Term} (hands : t.HandsNull scope)
    (filled : t.Filled) {v : Value} (ended : t.eval scope = .ok v) : v = .null := by
  induction hands generalizing v with
  | column null => exact Except.ok.inj (ended.symm.trans null)
  | @part s t among inner ih =>
      have part := filled.part (mem_parts_of_strict among)
      have unknown {w : Value} (wEq : s.eval scope = .ok w) : w = .null := ih part wEq
      cases t with
      | param | constant | argument | tuple | all | any => cases among
      | field target name =>
          obtain rfl := List.mem_singleton.1 among
          have noColumn : ∀ i, s ≠ param i := by
            rintro i rfl
            cases inner with
            | part among => cases among
          rw [eval_field _ noColumn] at ended
          obtain ⟨a, aEq, ended⟩ := Except.bind_eq_ok_iff.1 ended
          obtain rfl := unknown aEq
          exact null_of_strict only part aEq ended
      | subscript target key =>
          rw [eval] at ended
          obtain ⟨a, aEq, ended⟩ := Except.bind_eq_ok_iff.1 ended
          split at ended
          · exact (Except.ok.inj ended).symm
          · rename_i known
            obtain ⟨b, bEq, ended⟩ := Except.bind_eq_ok_iff.1 ended
            rcases List.mem_pair.1 among with rfl | rfl
            · obtain rfl := unknown aEq
              rw [(isUnknown_eq only part aEq).1] at known
              exact absurd rfl known
            · obtain rfl := unknown bEq
              exact null_of_strict only part bEq ended
      | call name operands =>
          rw [eval] at ended
          obtain ⟨f, -, ended⟩ := Except.bind_eq_ok_iff.1 ended
          obtain ⟨known, evaluated, ended⟩ := Except.bind_eq_ok_iff.1 ended
          exact null_of_call only part among (fun w => unknown) evaluated ended
      | method target name operands =>
          rw [eval_method] at ended
          obtain ⟨f, -, ended⟩ := Except.bind_eq_ok_iff.1 ended
          obtain ⟨known, evaluated, ended⟩ := Except.bind_eq_ok_iff.1 ended
          exact null_of_call only part among (fun w => unknown) evaluated ended
      | compare l op r =>
          rw [eval] at ended
          obtain ⟨a, aEq, ended⟩ := Except.bind_eq_ok_iff.1 ended
          obtain ⟨b, bEq, ended⟩ := Except.bind_eq_ok_iff.1 ended
          rw [compareValues_eq only (filled.part (by simp [parts])) (filled.part (by simp [parts]))
            op aEq bEq, if_pos] at ended
          · exact (Except.ok.inj ended).symm
          · rw [Bool.or_eq_true, isNull_iff, isNull_iff]
            rcases List.mem_pair.1 among with rfl | rfl
            · exact .inl (unknown aEq)
            · exact .inr (unknown bEq)
      | member item collection negated =>
          rw [eval] at ended
          obtain ⟨a, aEq, ended⟩ := Except.bind_eq_ok_iff.1 ended
          obtain ⟨w, wEq, ended⟩ := Except.bind_eq_ok_iff.1 ended
          obtain ⟨found, found_, ended⟩ := Except.bind_eq_ok_iff.1 ended
          obtain rfl := Except.ok.inj ended
          have null := null_of_membership only (filled.part (by simp [parts]))
            (filled.part (by simp [parts])) aEq wEq
            (by rcases List.mem_pair.1 among with rfl | rfl
                · exact .inl (unknown aEq)
                · exact .inr (unknown wEq)) found_
          rw [null]
          rfl
      | arithmetic l op r =>
          rw [eval] at ended
          obtain ⟨a, aEq, ended⟩ := Except.bind_eq_ok_iff.1 ended
          split at ended
          · exact (Except.ok.inj ended).symm
          · rename_i known
            obtain ⟨b, bEq, ended⟩ := Except.bind_eq_ok_iff.1 ended
            rcases List.mem_pair.1 among with rfl | rfl
            · obtain rfl := unknown aEq
              rw [(isUnknown_eq only part aEq).1] at known
              exact absurd rfl known
            · obtain rfl := unknown bEq
              exact null_of_strict only part bEq ended
      | not inner =>
          obtain rfl := List.mem_singleton.1 among
          rw [eval] at ended
          obtain ⟨a, aEq, ended⟩ := Except.bind_eq_ok_iff.1 ended
          obtain rfl := unknown aEq
          exact (Except.ok.inj ended).symm
      | negate inner =>
          obtain rfl := List.mem_singleton.1 among
          rw [eval] at ended
          obtain ⟨a, aEq, ended⟩ := Except.bind_eq_ok_iff.1 ended
          obtain rfl := unknown aEq
          exact null_of_strict only part aEq ended
      | named inner name =>
          obtain rfl := List.mem_singleton.1 among
          rw [eval] at ended
          exact unknown ended

/-- Values that differ but may be equal are lists. -/
theorem list_of_mayEqual {a b : Value} (known : a ≠ .null) (known' : b ≠ .null)
    (mayEqual : a.mayEqual b = true) (differ : a.compare? b ≠ some .eq) :
    a.kind = .list ∧ b.kind = .list := by
  unfold Value.mayEqual at mayEqual
  split at mayEqual
  · exact absurd rfl known
  · exact absurd rfl known'
  · exact ⟨rfl, rfl⟩
  · exact absurd (beq_iff_eq.1 mayEqual) differ

/-- A blind test has an answer, and the NULLs in its operands have no say in it. -/
theorem eval_of_blind (only : scope.OnlyRowsNull) {t : Term} (filled : t.Filled)
    (blind : t.Blind scope) : ∃ answer, t.eval scope = .ok (.bool answer) := by
  cases blind with
  | @compared l r op a b left right known known' equality mayEqual differ =>
      refine ⟨op = .ne, ?_⟩
      rw [eval]
      refine Except.bind_eq_ok_iff.2 ⟨a, left, Except.bind_eq_ok_iff.2 ⟨b, right, ?_⟩⟩
      rw [compareValues_eq only (filled.part (by simp [parts])) (filled.part (by simp [parts])) op
        left right, if_neg (by simp [isNull_iff, known, known']), compareBy_of_known known known']
      obtain ⟨listed, listed'⟩ := list_of_mayEqual known known' mayEqual differ
      rw [listed, listed']
      cases op with
      | eq => exact congrArg (fun b => Except.ok (Value.bool b)) (beq_eq_false_iff_ne.2 differ)
      | ne => exact congrArg (fun b => Except.ok (Value.bool b)) (bne_iff_ne.2 differ)
      | _ => cases equality
  | @contained item collection negated a members needle whole known noNull absent mayEqual =>
      refine ⟨negated, ?_⟩
      rw [eval]
      refine Except.bind_eq_ok_iff.2 ⟨a, needle, Except.bind_eq_ok_iff.2 ⟨_, whole,
        Except.bind_eq_ok_iff.2 ⟨.bool false, ?_, by cases negated <;> rfl⟩⟩⟩
      rw [membership_of_list only (filled.part (by simp [parts])) (filled.part (by simp [parts]))
        needle whole, foundAmong_of_absent known absent, if_neg (mt any_isNull_iff.1 noNull)]

/-- If NULL comes from nowhere but rows, a truth value that a term has on rows it has on the rows
with NULLs filled in, unless one of its tests is blind for a NULL in a list: such a test has an
answer although it should be unknown.  In every strict place a NULL makes the term unknown, so
that a comparison which reads one there accepts no row. -/
theorem definite_answers_survive (isStandard : scope.functions.IsStandard)
    (arguments : ∀ pair ∈ scope.arguments, pair.2.Filled) (fills : scope.FillsTo scope') {t : Term}
    (filled : t.Filled) :
    (∀ b v, t.eval scope = .ok (.bool b) → t.eval scope' = .ok v →
      v = .bool b ∨ ∃ s : Term, s.Within t ∧ s.Blind scope) ∧
    (∀ (s : Term) v, s.Within t → s.HandsNull scope → s.eval scope = .ok v → v = .null) ∧
    ∀ s : Term, s.Within t → s.Blind scope → ∃ answer, s.eval scope = .ok (.bool answer) := by
  have only : scope.OnlyRowsNull := ⟨arguments, isStandard.usual⟩
  refine ⟨fun b v ended ended' => ?_, fun s v within hands ended => ?_, fun s within blind => ?_⟩
  · by_cases sighted : ∃ s : Term, s.Within t ∧ s.Blind scope
    · exact .inr sighted
    · have keeps := keeps_of_sighted only fills t filled
        fun s within blind => sighted ⟨s, within, blind⟩
      exact .inl ((keeps _ v ended ended').eq_of_not_list nofun nofun)
  · exact null_of_handsNull only hands (filled.within within) ended
  · exact eval_of_blind only (filled.within within) blind

section Prices

/-- The price, as a list, differs from the list of a price of 1. -/
def pricedApart : Term :=
  compare (tuple [field (param 0) "price"]) .ne (tuple [constant (.int 1)])

/-- An offer whose price is not known, and what it turns out to be. -/
def offer (price : Value) : Scope where
  rows := [[("price", price)]]
  functions := .standard

theorem offer_fillsTo (price : Value) : (offer .null).FillsTo (offer price) where
  rows := .cons (.cons ⟨rfl, .inl rfl⟩ .nil) .nil
  arguments := rfl
  functions := rfl

theorem filled_pricedApart : pricedApart.Filled := by
  have single {s : Term} (filled : s.Filled) : ∀ u ∈ [s], u.Filled := by simpa using filled
  refine .of_parts nofun (List.forall_mem_cons.2 ⟨.of_parts nofun (single ?_), single ?_⟩)
  · exact .of_parts nofun (single (.of_parts nofun nofun))
  · refine .of_parts nofun (single (.of_parts (fun v same => ?_) nofun))
    obtain rfl := constant.inj same
    exact filled_int 1

theorem pricedApart_is_blind :
    pricedApart.eval (offer .null) = .ok (.bool true) ∧
      pricedApart.eval (offer (.int 1)) = .ok (.bool false) ∧
      ∃ s : Term, s.Within pricedApart ∧ s.Blind (offer .null) := by
  have before : pricedApart.eval (offer .null) = .ok (.bool true) := rfl
  have after : pricedApart.eval (offer (.int 1)) = .ok (.bool false) := rfl
  refine ⟨before, after, ?_⟩
  exact ((definite_answers_survive (.inl rfl) (by simp [offer]) (offer_fillsTo (.int 1))
    filled_pricedApart).1 true _ before after).resolve_left nofun

end Prices

end Term

end RowQuery
