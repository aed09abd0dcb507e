import RowQuery.Proofs.Steps
import RowQuery.Value.Arithmetic
import RowQuery.Value.Part

/-!
# Kinds of values

The kind of a result is determined by the kinds of the operands.  What is known of a value
beforehand is the value itself, except for truth values: a constant truth value may turn out as
another one, or as unknown, where it depends on a row after all.
-/

namespace RowQuery

namespace Value

/-- The value is NULL or of a kind. -/
def Fits (kind : Kind) (v : Value) : Prop :=
  v = null ∨ v.kind = kind

theorem fits_null (kind : Kind) : null.Fits kind :=
  .inl rfl

theorem fits_kind (v : Value) : v.Fits v.kind :=
  .inr rfl

theorem fits_bool (b : Bool) : (bool b).Fits .bool :=
  .inr rfl

/-- Neither NULL nor a truth value. -/
structure Solid (v : Value) : Prop where
  notNull : v.kind ≠ .null
  notBool : v.kind ≠ .bool

theorem Fits.kind_of_solid {kind : Kind} {v : Value} (fits : v.Fits kind) (solid : v.Solid) :
    v.kind = kind := by
  rcases fits with rfl | same
  · exact absurd rfl solid.notNull
  · exact same

/-- No list either. -/
structure Plain (v : Value) : Prop extends Solid v where
  notList : v.kind ≠ .list

/-- What a constant tells of the value that takes its place. -/
inductive Foresees : Value → Value → Prop
  | same (v : Value) : Foresees v v
  | truth (b : Bool) {v : Value} (fits : Fits .bool v) : Foresees (bool b) v
  | list {items items' : List Value} (each : List.Forall₂ Foresees items items') :
      Foresees (list items) (list items')

namespace Foresees

variable {k v : Value}

theorem fits (foresees : Foresees k v) : v.Fits k.kind := by
  cases foresees with
  | same => exact fits_kind _
  | truth _ fits => exact fits
  | list => exact .inr rfl

/-- Values of most kinds are what they are known to be. -/
theorem eq_of_plain (foresees : k.Foresees v) (plain : k.Plain) : v = k := by
  cases foresees with
  | same => rfl
  | truth => exact absurd rfl plain.notBool
  | list => exact absurd rfl plain.notList

/-- Nothing but NULL and truth values turns out as NULL. -/
theorem not_null_of_solid (foresees : k.Foresees v) (solid : k.Solid) : v ≠ null := by
  rintro rfl
  cases foresees with
  | same => exact solid.notNull rfl
  | truth => exact solid.notBool rfl

theorem eq_of_forall_plain {ks vs : List Value} (each : List.Forall₂ Foresees ks vs)
    (plain : ∀ k ∈ ks, Plain k) : vs = ks := by
  induction each with
  | nil => rfl
  | cons head _ ih =>
      rw [List.forall_mem_cons] at plain
      rw [head.eq_of_plain plain.1, ih plain.2]

theorem of_bool (fits : v.Fits .bool) (known : k.kind = .bool) : k.Foresees v := by
  cases k with
  | bool b => exact .truth b fits
  | _ => cases known

end Foresees

/-! ## Arithmetic -/

theorem orFault_eq_ok {α : Type} {fault : Fault} {wrap : α → Value} {result : Option α} {v : Value}
    (ended : orFault fault wrap result = .ok v) : ∃ a, v = wrap a := by
  cases result with
  | none => cases ended
  | some a => exact ⟨a, (Except.ok.inj ended).symm⟩

theorem kind_of_fitInt {op : Arithmetic} {i : Int} {v : Value} (ended : fitInt op i = .ok v) :
    v.kind = .int := by
  obtain ⟨a, rfl⟩ := orFault_eq_ok ended
  rfl

theorem kind_of_intArithmetic {a b : Int64} {op : Arithmetic} {v : Value}
    (ended : intArithmetic a op b = .ok v) :
    v.kind = if op = .div then .float else .int := by
  cases op with
  | add => exact kind_of_fitInt ended
  | sub => exact kind_of_fitInt ended
  | mul => exact kind_of_fitInt ended
  | div =>
      simp only [intArithmetic] at ended
      split at ended
      · cases ended
      · rw [← Except.ok.inj ended]
        rfl
  | mod =>
      simp only [intArithmetic, intRemainder] at ended
      split at ended
      · cases ended
      · split at ended
        · cases ended
        · exact kind_of_fitInt ended

theorem kind_of_floatArithmetic {a b : Float} {op : Arithmetic} {v : Value}
    (ended : floatArithmetic a op b = .ok v) : v.kind = .float := by
  unfold floatArithmetic at ended
  split at ended
  · rw [← Except.ok.inj ended]
    rfl
  · rw [← Except.ok.inj ended]
    rfl
  · rw [← Except.ok.inj ended]
    rfl
  · split at ended
    · cases ended
    · rw [← Except.ok.inj ended]
      rfl
  · split at ended
    · cases ended
    · rw [← Except.ok.inj ended]
      rfl

theorem kind_of_decimalArithmetic {a b : Number.Decimal} {op : Arithmetic} {v : Value}
    (ended : decimalArithmetic a op b = .ok v) : v.kind = .decimal := by
  unfold decimalArithmetic at ended
  split at ended
  · cases ended
  · obtain ⟨d, rfl⟩ := orFault_eq_ok ended
    rfl

theorem kind_of_scaleInterval {i : Calendar.Interval} {factor : Float} {v : Value}
    (ended : scaleInterval i factor = .ok v) : v.kind = .interval := by
  obtain ⟨micros, -, rest⟩ := Except.bind_eq_ok_iff.1 ended
  dsimp only at rest
  split at rest
  · cases rest
  · obtain ⟨i, rfl⟩ := orFault_eq_ok rest
    rfl

theorem kind_of_shrinkInterval {i : Calendar.Interval} {divisor : Float} {v : Value}
    (ended : shrinkInterval i divisor = .ok v) : v.kind = .interval := by
  unfold shrinkInterval at ended
  split at ended
  · cases ended
  · exact kind_of_scaleInterval ended

theorem kind_of_divideIntervals {a b : Calendar.Interval} {v : Value}
    (ended : divideIntervals a b = .ok v) : v.kind = .float := by
  obtain ⟨divisor, -, rest⟩ := Except.bind_eq_ok_iff.1 ended
  split at rest
  · cases rest
  · obtain ⟨micros, -, last⟩ := Except.bind_eq_ok_iff.1 rest
    rw [← Except.ok.inj last]
    rfl

/-- The table of operands tells the kind of every result of arithmetic. -/
theorem resultKind_of_arithmetic {l r v : Value} {op : Arithmetic}
    (ended : l.arithmetic op r = .ok v) : op.resultKind l.kind r.kind = some v.kind := by
  unfold arithmetic at ended
  split at ended
  · rw [kind_of_intArithmetic ended]
    cases op <;> rfl
  · rw [kind_of_floatArithmetic ended]
    cases op <;> rfl
  · rw [kind_of_floatArithmetic ended]
    cases op <;> rfl
  · rw [kind_of_floatArithmetic ended]
    cases op <;> rfl
  · rw [kind_of_decimalArithmetic ended]
    cases op <;> rfl
  · rw [kind_of_decimalArithmetic ended]
    cases op <;> rfl
  · rw [kind_of_decimalArithmetic ended]
    cases op <;> rfl
  · rw [← Except.ok.inj ended]
    rfl
  · rw [← Except.ok.inj ended]
    rfl
  iterate 10
    · obtain ⟨a, rfl⟩ := orFault_eq_ok ended
      rfl
  · rw [kind_of_divideIntervals ended]
    rfl
  iterate 4
    · rw [kind_of_scaleInterval ended]
      rfl
  iterate 2
    · rw [kind_of_shrinkInterval ended]
      rfl
  · cases ended

theorem plain_of_arithmetic {l r v : Value} {op : Arithmetic}
    (ended : l.arithmetic op r = .ok v) : l.Plain ∧ r.Plain := by
  have listed := resultKind_of_arithmetic ended
  have operand (kind : Kind) (none_ : ∀ other, op.resultKind kind other = none ∧
      op.resultKind other kind = none) : l.kind ≠ kind ∧ r.kind ≠ kind := by
    constructor
    · rintro rfl
      rw [(none_ _).1] at listed
      cases listed
    · rintro rfl
      rw [(none_ _).2] at listed
      cases listed
  have noNull := operand .null fun other => by cases op <;> cases other <;> exact ⟨rfl, rfl⟩
  have noBool := operand .bool fun other => by cases op <;> cases other <;> exact ⟨rfl, rfl⟩
  have noList := operand .list fun other => by cases op <;> cases other <;> exact ⟨rfl, rfl⟩
  exact ⟨⟨⟨noNull.1, noBool.1⟩, noList.1⟩, ⟨⟨noNull.2, noBool.2⟩, noList.2⟩⟩

/-! ## Signs and parts -/

theorem kind_of_negate {v u : Value} (ended : v.negate = .ok u) : u.kind = v.kind ∧ v.Plain := by
  unfold negate at ended
  split at ended
  · obtain ⟨i, rfl⟩ := orFault_eq_ok ended
    exact ⟨rfl, ⟨nofun, nofun⟩, nofun⟩
  · rw [← Except.ok.inj ended]
    exact ⟨rfl, ⟨nofun, nofun⟩, nofun⟩
  · rw [← Except.ok.inj ended]
    exact ⟨rfl, ⟨nofun, nofun⟩, nofun⟩
  · rw [← Except.ok.inj ended]
    exact ⟨rfl, ⟨nofun, nofun⟩, nofun⟩
  · cases ended

theorem field_eq_ok {v u : Value} {name : String} (ended : v.field name = .ok u) :
    ∃ n, v.field? name = some n ∧ u = int (Int64.ofInt n) := by
  unfold field at ended
  split at ended
  · rename_i n found
    exact ⟨n, found, (Except.ok.inj ended).symm⟩
  · cases ended

theorem kind_of_field {v u : Value} {name : String} (ended : v.field name = .ok u) :
    u.kind = .int ∧ v.Plain := by
  obtain ⟨n, found, rfl⟩ := field_eq_ok ended
  refine ⟨rfl, ?_⟩
  cases v <;> first | cases found | exact ⟨⟨nofun, nofun⟩, nofun⟩

theorem item_eq_ok {v key u : Value} (ended : v.item key = .ok u) : v.item? key = some u := by
  unfold item at ended
  split at ended
  · rename_i part found
    rw [found, Except.ok.inj ended]
  · cases ended

theorem plain_of_item {v key u : Value} (ended : v.item key = .ok u) : v.Solid ∧ key.Plain := by
  have found := item_eq_ok ended
  unfold item? at found
  split at found <;> first | cases found | exact ⟨⟨nofun, nofun⟩, ⟨nofun, nofun⟩, nofun⟩

namespace Foresees

variable {k k' r u v v' : Value}

theorem itemAt? {items items' : List Value} (each : List.Forall₂ Foresees items items')
    {index : Int64} (known : Value.itemAt? items index = some r)
    (found : Value.itemAt? items' index = some u) : r.Foresees u := by
  unfold Value.itemAt? at known found
  rw [← each.length_eq] at found
  dsimp only at known found
  generalize (if index < 0 then (items.length : Int) + index.toInt else index.toInt) = i
    at known found
  by_cases outside : i < 0
  · rw [if_pos outside] at known
    cases known
  · rw [if_neg outside] at known found
    obtain ⟨u', found', foresees⟩ := each.exists_getElem? known
    rwa [Option.some.inj (found.symm.trans found')]

theorem item (whole : k.Foresees v) (key : k'.Foresees v') (known : k.item k' = .ok r)
    (found : v.item v' = .ok u) : r.Foresees u := by
  obtain ⟨solid, plain⟩ := plain_of_item known
  obtain rfl := key.eq_of_plain plain
  cases whole with
  | same =>
      rw [Except.ok.inj (known.symm.trans found)]
      exact .same u
  | truth => exact absurd rfl solid.notBool
  | list each =>
      have known := item_eq_ok known
      have found := item_eq_ok found
      cases v' with
      | int index => exact itemAt? each known found
      | _ => cases known

/-- Where the operands are what they are known to be the result is, too. -/
theorem of_eq {result : Outcome Value} (known : result = .ok r) (found : result = .ok u) :
    r.Foresees u := by
  rw [Except.ok.inj (known.symm.trans found)]
  exact .same u

theorem arithmetic {op : Arithmetic} (left : k.Foresees v) (right : k'.Foresees v')
    (known : k.arithmetic op k' = .ok r) (found : v.arithmetic op v' = .ok u) : r.Foresees u := by
  obtain ⟨plain, plain'⟩ := plain_of_arithmetic known
  obtain rfl := left.eq_of_plain plain
  obtain rfl := right.eq_of_plain plain'
  exact of_eq known found

theorem negate (foresees : k.Foresees v) (known : k.negate = .ok r) (found : v.negate = .ok u) :
    r.Foresees u := by
  obtain rfl := foresees.eq_of_plain (kind_of_negate known).2
  exact of_eq known found

theorem field {name : String} (foresees : k.Foresees v) (known : k.field name = .ok r)
    (found : v.field name = .ok u) : r.Foresees u := by
  obtain rfl := foresees.eq_of_plain (kind_of_field known).2
  exact of_eq known found

end Foresees

end Value

end RowQuery
