import RowQuery.Evaluate
import RowQuery.Proofs.Keyed
import RowQuery.Proofs.Kind.Value

/-!
# Values in the place of NULLs

A value may hold NULLs: it is NULL itself, or a list with NULLs somewhere in it.  With values in
their place it keeps its kind and its truth, and so do its items.  Comparison is another matter:
lists that compare as equal hold no NULL where they are compared, but of lists with NULLs nothing
can be said before the NULLs are filled in, unless they differ elsewhere.
-/

namespace RowQuery

/-- A document without null in it. -/
inductive Json.Filled : Json → Prop
  | bool (b : Bool) : Filled (.bool b)
  | number (n : JsonNumber) : Filled (.number n)
  | string (s : String) : Filled (.string s)
  | array {items : List Json} (each : ∀ item ∈ items, Filled item) : Filled (.array items)
  | object {members : List (String × Json)} (each : ∀ member ∈ members, Filled member.2) :
      Filled (.object members)

namespace Value

/-- A value without NULL in it. -/
inductive Filled : Value → Prop
  | json {document : Json} (filled : document.Filled) : Filled (.json document)
  | list {items : List Value} (each : ∀ item ∈ items, Filled item) : Filled (.list items)
  | single {v : Value} (notNull : v.kind ≠ .null) (notJson : v.kind ≠ .json)
      (notList : v.kind ≠ .list) : Filled v

/-- The second value is the first one with values in the place of some of its NULLs. -/
inductive FillsTo : Value → Value → Prop
  | null (v : Value) : FillsTo null v
  | same (v : Value) : FillsTo v v
  | list {items items' : List Value} (each : List.Forall₂ FillsTo items items') :
      FillsTo (list items) (list items')

mutual

/-- The values are equal, or may be once their NULLs are filled in. -/
def mayEqual : Value → Value → Bool
  | null, _ | _, null => true
  | list a, list b => mayEqualItems a b
  | a, b => compare? a b == some .eq

/-- The items of two lists may be equal. -/
def mayEqualItems : List Value → List Value → Bool
  | [], [] => true
  | a :: as, b :: bs => mayEqual a b && mayEqualItems as bs
  | _, _ => false

end

/-! ## Values without NULL -/

theorem Filled.not_null {v : Value} (filled : v.Filled) : v ≠ null := by
  rintro rfl
  cases filled with
  | single notNull => exact notNull rfl

theorem filled_bool (b : Bool) : (bool b).Filled :=
  .single nofun nofun nofun

theorem filled_int (i : Int64) : (int i).Filled :=
  .single nofun nofun nofun

theorem Filled.of_fits_bool {v : Value} (fits : v.Fits .bool) (known : v ≠ null) : v.Filled := by
  have kind := fits.resolve_left known
  exact .single (by simp [kind]) (by simp [kind]) (by simp [kind])

theorem filled_ofJson {document : Json} (filled : document.Filled) : (ofJson document).Filled := by
  cases filled with
  | bool b => exact filled_bool b
  | number n =>
      cases n with
      | whole i =>
          unfold ofJson
          dsimp only
          split <;> exact .single nofun nofun nofun
      | double x => exact .single nofun nofun nofun
  | string s => exact .single nofun nofun nofun
  | array each => exact .json (.array each)
  | object each => exact .json (.object each)

/-- What is found at an index stands at some place. -/
theorem itemAt?_eq_some {α : Type} {items : List α} {index : Int64} {item : α}
    (found : itemAt? items index = some item) :
    ∃ n : Nat, items[n]? = some item ∧ ∀ (β : Type) (others : List β),
      others.length = items.length → itemAt? others index = others[n]? := by
  unfold itemAt? at found
  dsimp only at found
  by_cases outside : (if index < 0 then items.length + index.toInt else index.toInt) < 0
  · rw [if_pos outside] at found
    cases found
  · rw [if_neg outside] at found
    refine ⟨_, found, fun β others same => ?_⟩
    unfold itemAt?
    dsimp only
    rw [same, if_neg outside]

theorem mem_of_itemAt? {α : Type} {items : List α} {index : Int64} {item : α}
    (found : itemAt? items index = some item) : item ∈ items := by
  obtain ⟨n, stands, -⟩ := itemAt?_eq_some found
  exact List.mem_of_getElem? stands

theorem filled_item {v key u : Value} (filled : v.Filled) (ended : v.item key = .ok u) :
    u.Filled := by
  have found := item_eq_ok ended
  unfold item? at found
  split at found
  · cases filled with
    | list each => exact each _ (mem_of_itemAt? found)
    | single _ _ notList => exact absurd rfl notList
  · obtain ⟨c, -, rfl⟩ := Option.map_eq_some_iff.1 found
    exact .single nofun nofun nofun
  · obtain ⟨part, held, rfl⟩ := Option.map_eq_some_iff.1 found
    cases filled with
    | json document =>
        cases document with
        | object each => exact filled_ofJson (each _ (Keyed.mem_of_get? held))
    | single _ notJson => exact absurd rfl notJson
  · obtain ⟨part, held, rfl⟩ := Option.map_eq_some_iff.1 found
    cases filled with
    | json document =>
        cases document with
        | array each => exact filled_ofJson (each _ (mem_of_itemAt? held))
    | single _ notJson => exact absurd rfl notJson
  · cases found

theorem filled_arithmetic {l r v : Value} {op : Arithmetic} (ended : l.arithmetic op r = .ok v) :
    v.Filled := by
  have listed := resultKind_of_arithmetic ended
  unfold Arithmetic.resultKind at listed
  have kind : v.kind ≠ .null ∧ v.kind ≠ .json ∧ v.kind ≠ .list := by
    split at listed <;> first | cases listed | (rw [← Option.some.inj listed]; decide)
  exact .single kind.1 kind.2.1 kind.2.2

theorem filled_negate {v u : Value} (ended : v.negate = .ok u) : u.Filled := by
  unfold negate at ended
  split at ended
  · obtain ⟨i, rfl⟩ := orFault_eq_ok ended
    exact filled_int i
  · obtain rfl := Except.ok.inj ended
    exact .single nofun nofun nofun
  · obtain rfl := Except.ok.inj ended
    exact .single nofun nofun nofun
  · obtain rfl := Except.ok.inj ended
    exact .single nofun nofun nofun
  · cases ended

theorem filled_field {v u : Value} {name : String} (ended : v.field name = .ok u) : u.Filled := by
  obtain ⟨n, -, rfl⟩ := field_eq_ok ended
  exact filled_int _

/-! ## Filling in -/

namespace FillsTo

variable {v v' key key' u u' a a' b b' : Value}

theorem eq_of_plain (fills : v.FillsTo v') (plain : v.Plain) : v' = v := by
  cases fills with
  | null => exact absurd rfl plain.notNull
  | same => rfl
  | list => exact absurd rfl plain.notList

theorem eq_of_forall_plain {vs vs' : List Value} (each : List.Forall₂ FillsTo vs vs')
    (plain : ∀ v ∈ vs, Plain v) : vs' = vs := by
  induction each with
  | nil => rfl
  | cons head _ ih =>
      rw [List.forall_mem_cons] at plain
      rw [head.eq_of_plain plain.1, ih plain.2]

theorem kind (fills : v.FillsTo v') (known : v ≠ .null) : v'.kind = v.kind := by
  cases fills with
  | null => exact absurd rfl known
  | same => rfl
  | list => rfl

theorem not_null (fills : v.FillsTo v') (known : v ≠ .null) : v' ≠ .null := by
  rintro rfl
  cases fills with
  | null => exact known rfl
  | same => exact known rfl

theorem eq_of_not_list (fills : v.FillsTo v') (known : v ≠ .null) (noList : v.kind ≠ .list) :
    v' = v := by
  cases fills with
  | null => exact absurd rfl known
  | same => rfl
  | list => exact absurd rfl noList

theorem truthy (fills : v.FillsTo v') (known : v ≠ .null) : v'.truthy = v.truthy := by
  cases fills with
  | null => exact absurd rfl known
  | same => rfl
  | list each => cases each <;> rfl

theorem of_eq {result : Outcome Value} (ended : result = .ok u) (ended' : result = .ok u') :
    u.FillsTo u' := by
  rw [Except.ok.inj (ended.symm.trans ended')]
  exact .same u'

theorem arithmetic {op : Arithmetic} (left : a.FillsTo a') (right : b.FillsTo b')
    (ended : a.arithmetic op b = .ok u) (ended' : a'.arithmetic op b' = .ok u') : u.FillsTo u' := by
  obtain ⟨plain, plain'⟩ := plain_of_arithmetic ended
  obtain rfl := left.eq_of_plain plain
  obtain rfl := right.eq_of_plain plain'
  exact of_eq ended ended'

theorem negate (fills : v.FillsTo v') (ended : v.negate = .ok u) (ended' : v'.negate = .ok u') :
    u.FillsTo u' := by
  obtain rfl := fills.eq_of_plain (kind_of_negate ended).2
  exact of_eq ended ended'

theorem field {name : String} (fills : v.FillsTo v') (ended : v.field name = .ok u)
    (ended' : v'.field name = .ok u') : u.FillsTo u' := by
  obtain rfl := fills.eq_of_plain (kind_of_field ended).2
  exact of_eq ended ended'

theorem itemAt? {items items' : List Value} (each : List.Forall₂ FillsTo items items')
    {index : Int64} (found : Value.itemAt? items index = some u)
    (found' : Value.itemAt? items' index = some u') : u.FillsTo u' := by
  obtain ⟨n, stands, elsewhere⟩ := itemAt?_eq_some found
  obtain ⟨u'', stands', fills⟩ := each.exists_getElem? stands
  rw [elsewhere _ items' each.length_eq.symm, stands'] at found'
  rwa [← Option.some.inj found']

theorem item (whole : v.FillsTo v') (index : key.FillsTo key') (ended : v.item key = .ok u)
    (ended' : v'.item key' = .ok u') : u.FillsTo u' := by
  obtain ⟨solid, plain⟩ := plain_of_item ended
  obtain rfl := index.eq_of_plain plain
  cases whole with
  | null => exact absurd rfl solid.notNull
  | same => exact of_eq ended ended'
  | list each =>
      have found := item_eq_ok ended
      have found' := item_eq_ok ended'
      cases key' with
      | int index => exact itemAt? each found found'
      | _ => cases found

end FillsTo

/-! ## Equality -/

theorem looseEq_iff {a b : Value} (left : a ≠ null) (right : b ≠ null) :
    a.looseEq b = true ↔ a.compare? b = some .eq := by
  unfold looseEq
  split
  · exact absurd rfl left
  · exact absurd rfl left
  · exact absurd rfl right
  · rw [beq_iff_eq]

theorem compareLists?_cons_eq_iff {a b : Value} {as bs : List Value} :
    compareLists? (a :: as) (b :: bs) = some .eq ↔
      compare? a b = some .eq ∧ compareLists? as bs = some .eq := by
  rw [compareLists?]
  split
  · rename_i equal
    simp [equal]
  · rename_i differ
    exact ⟨fun equal => absurd equal differ, fun equal => absurd equal.1 differ⟩

/-- Lists are equal to nothing but lists, and NULL has no order. -/
theorem kind_of_ordered {a b : Value} {o : Ordering} (ordered : a.compare? b = some o) :
    a ≠ null ∧ b ≠ null ∧ (a.kind = .list ↔ b.kind = .list) := by
  unfold compare? at ordered
  split at ordered <;> first | cases ordered; done | exact ⟨nofun, nofun, by simp [kind]⟩

theorem exists_items_of_kind {v : Value} (listed : v.kind = .list) : ∃ items, v = list items := by
  cases v with
  | list items => exact ⟨items, rfl⟩
  | _ => cases listed

/-- The parts of documents are documents and single values. -/
theorem kind_ofJson (document : Json) : (ofJson document).kind ≠ .list := by
  cases document with
  | number n =>
      cases n with
      | whole i =>
          unfold ofJson
          dsimp only
          split <;> nofun
      | double => nofun
  | _ => nofun

theorem mayEqual_single {a b : Value} (noList : a.kind ≠ .list)
    (equal : a.compare? b = some .eq) : a.mayEqual b = true := by
  unfold mayEqual
  split
  · rfl
  · rfl
  · exact absurd rfl noList
  · rw [equal]
    rfl

theorem compareBy_of_known {a b : Value} {op : Comparison} (known : a ≠ null) (known' : b ≠ null) :
    a.compareBy op b =
      if op.accepts a.kind b.kind then .ok (op.holds (a.compare? b)) else compareUnrelated a op b := by
  unfold compareBy
  rw [if_neg]
  cases a <;> cases b <;> first | exact absurd rfl known | exact absurd rfl known' | nofun

/-- For an equality it matters only whether the values are equal. -/
theorem holds_congr {op : Comparison} (equality : op.isEquality = true) {o o' : Option Ordering}
    (alike : o' = some .eq ↔ o = some .eq) : op.holds o' = op.holds o := by
  cases op with
  | eq => exact beq_eq_beq.2 alike
  | ne => exact congrArg Bool.not (beq_eq_beq.2 alike)
  | _ => cases equality

/-- Lists are compared for equality only. -/
theorem not_list_of_accepts {op : Comparison} {l r : Kind} (ordering : ¬op.isEquality = true)
    (accepted : op.accepts l r = true) : l ≠ .list ∧ r ≠ .list := by
  constructor <;> rintro rfl
  · cases r <;> first | exact ordering accepted | cases accepted
  · cases l <;> first | exact ordering accepted | cases accepted

namespace FillsTo

variable {as as' bs bs' : List Value}

/-- A list with values in the place of its NULLs is a list. -/
theorem exists_items {a' : Value} (fills : FillsTo (.list as) a') :
    ∃ as', a' = .list as' ∧ List.Forall₂ FillsTo as as' := by
  cases fills with
  | same => exact ⟨as, rfl, List.forall₂_same.2 fun item _ => .same item⟩
  | list each => exact ⟨_, rfl, each⟩

theorem eq_of_equal_items
    (item : ∀ a ∈ as, ∀ a' b b', FillsTo a a' → FillsTo b b' → a.compare? b = some .eq →
      a' = a ∧ b' = b)
    (left : List.Forall₂ FillsTo as as') (right : List.Forall₂ FillsTo bs bs')
    (equal : compareLists? as bs = some .eq) : as' = as ∧ bs' = bs := by
  induction left generalizing bs bs' with
  | nil =>
      cases right with
      | nil => exact ⟨rfl, rfl⟩
      | cons => cases equal
  | cons head _ ih =>
      cases right with
      | nil => cases equal
      | cons head' tail' =>
          obtain ⟨first, rest⟩ := compareLists?_cons_eq_iff.1 equal
          rw [List.forall_mem_cons] at item
          obtain ⟨rfl, rfl⟩ := item.1 _ _ _ head head' first
          obtain ⟨rfl, rfl⟩ := ih item.2 tail' rest
          exact ⟨rfl, rfl⟩

/-- Where values are equal there is nothing to fill in. -/
theorem eq_of_equal {a a' b b' : Value} (left : a.FillsTo a') (right : b.FillsTo b')
    (equal : a.compare? b = some .eq) : a' = a ∧ b' = b := by
  obtain ⟨known, known', alike⟩ := kind_of_ordered equal
  by_cases listed : a.kind = .list
  · obtain ⟨as, same⟩ := exists_items_of_kind listed
    obtain ⟨bs, rfl⟩ := exists_items_of_kind (alike.1 listed)
    rw [same] at left equal ⊢
    obtain ⟨as', rfl, each⟩ := left.exists_items
    obtain ⟨bs', rfl, each'⟩ := right.exists_items
    rw [compare?] at equal
    obtain ⟨rfl, rfl⟩ := eq_of_equal_items
      (fun item member _ _ _ left right equal => eq_of_equal left right equal) each each' equal
    exact ⟨rfl, rfl⟩
  · exact ⟨left.eq_of_not_list known listed, right.eq_of_not_list known' (mt alike.2 listed)⟩
termination_by sizeOf a
decreasing_by
  have := List.sizeOf_lt_of_mem member
  rw [same, Value.list.sizeOf_spec]
  omega

theorem mayEqual_items_of_equal
    (item : ∀ a ∈ as, ∀ a' b b', FillsTo a a' → FillsTo b b' → a'.compare? b' = some .eq →
      a.mayEqual b = true)
    (left : List.Forall₂ FillsTo as as') (right : List.Forall₂ FillsTo bs bs')
    (equal : compareLists? as' bs' = some .eq) : mayEqualItems as bs = true := by
  induction left generalizing bs bs' with
  | nil =>
      cases right with
      | nil => rfl
      | cons => cases equal
  | cons head _ ih =>
      cases right with
      | nil => cases equal
      | cons head' tail' =>
          obtain ⟨first, rest⟩ := compareLists?_cons_eq_iff.1 equal
          rw [List.forall_mem_cons] at item
          rw [mayEqualItems, item.1 _ _ _ head head' first, ih item.2 tail' rest]
          rfl

/-- Values that are equal once they are filled in may have been equal before. -/
theorem mayEqual_of_equal {a a' b b' : Value} (left : a.FillsTo a') (right : b.FillsTo b')
    (equal : a'.compare? b' = some .eq) : a.mayEqual b = true := by
  by_cases known : a = .null
  · rw [known, mayEqual]
  by_cases known' : b = .null
  · rw [known', mayEqual]
    exact known
  have alike := (kind_of_ordered equal).2.2
  rw [left.kind known, right.kind known'] at alike
  by_cases listed : a.kind = .list
  · obtain ⟨as, same⟩ := exists_items_of_kind listed
    obtain ⟨bs, rfl⟩ := exists_items_of_kind (alike.1 listed)
    rw [same] at left ⊢
    obtain ⟨as', rfl, each⟩ := left.exists_items
    obtain ⟨bs', rfl, each'⟩ := right.exists_items
    rw [compare?] at equal
    rw [mayEqual]
    exact mayEqual_items_of_equal
      (fun item member _ _ _ left right equal => mayEqual_of_equal left right equal) each each' equal
  · rw [left.eq_of_not_list known listed,
      right.eq_of_not_list known' (mt alike.2 listed)] at equal
    exact mayEqual_single listed equal
termination_by sizeOf a
decreasing_by
  have := List.sizeOf_lt_of_mem member
  rw [same, Value.list.sizeOf_spec]
  omega

/-- A comparison for equality of values that are not NULL is settled, unless the values differ but
may be equal. -/
theorem equal_iff {a a' b b' : Value} (left : a.FillsTo a') (right : b.FillsTo b')
    (settled : a.mayEqual b = true → a.compare? b = some .eq) :
    a'.compare? b' = some .eq ↔ a.compare? b = some .eq := by
  constructor
  · exact fun equal => settled (left.mayEqual_of_equal right equal)
  · intro equal
    obtain ⟨rfl, rfl⟩ := left.eq_of_equal right equal
    exact equal

/-- Nothing but a list holds an item of which something has to be filled in. -/
theorem contains {v a a' : Value} (item : a.FillsTo a') (known : a ≠ .null) (noList : v.kind ≠ .list)
    {found found' : Bool} (ended : v.contains a = .ok found) (ended' : v.contains a' = .ok found') :
    found' = found := by
  by_cases listed : a.kind = .list
  · obtain ⟨as, rfl⟩ := exists_items_of_kind listed
    obtain ⟨as', rfl, -⟩ := item.exists_items
    have absent (parts : List Json) (items : List Value) :
        (parts.any fun part => (ofJson part).looseEq (.list items)) = false := by
      rw [List.any_eq_false]
      intro part _ equal
      by_cases none_ : ofJson part = .null
      · rw [none_] at equal
        cases equal
      · have alike := (kind_of_ordered ((@looseEq_iff _ (.list items) none_ nofun).1 equal)).2.2
        exact kind_ofJson part (alike.2 rfl)
    unfold Value.contains at ended ended'
    cases v with
    | list => exact absurd rfl noList
    | json document =>
        cases document with
        | array parts =>
            have ended : Except.ok _ = Except.ok found := ended
            have ended' : Except.ok _ = Except.ok found' := ended'
            rw [absent] at ended ended'
            exact Except.ok.inj (ended'.symm.trans ended)
        | _ => cases ended
    | _ => cases ended
  · obtain rfl := item.eq_of_not_list known listed
    exact Except.ok.inj (ended'.symm.trans ended)

theorem compareBy {a a' b b' : Value} {op : Comparison} (left : a.FillsTo a')
    (right : b.FillsTo b') (known : a ≠ .null) (known' : b ≠ .null)
    (settled : op.isEquality = true → a.mayEqual b = true → a.compare? b = some .eq)
    {answer answer' : Bool} (ended : a.compareBy op b = .ok answer)
    (ended' : a'.compareBy op b' = .ok answer') : answer' = answer := by
  rw [compareBy_of_known known known'] at ended
  rw [compareBy_of_known (left.not_null known) (right.not_null known'), left.kind known,
    right.kind known'] at ended'
  split at ended
  · rename_i accepted
    rw [if_pos accepted] at ended'
    rw [← Except.ok.inj ended, ← Except.ok.inj ended']
    by_cases equality : op.isEquality = true
    · exact holds_congr equality (left.equal_iff right (settled equality))
    · -- Lists have no order, so nothing is filled in.
      obtain ⟨noList, noList'⟩ := not_list_of_accepts equality accepted
      rw [left.eq_of_not_list known noList, right.eq_of_not_list known' noList']
  · rename_i refused
    rw [if_neg refused] at ended'
    unfold compareUnrelated at ended ended'
    split at ended
    · rename_i equality
      rw [if_pos equality] at ended'
      exact Except.ok.inj (ended'.symm.trans ended)
    · cases ended

end FillsTo

/-- Whether the item is one of the members, if their NULLs are all unknown. -/
def foundAmong (item : Value) (members : List Value) : Value :=
  if item.isNull then null
  else if members.any fun member => member.looseEq item then bool true
  else if members.any isNull then null
  else bool false

theorem isNull_iff {v : Value} : v.isNull = true ↔ v = null := by
  cases v <;> simp [isNull]

theorem foundAmong_of_found {item : Value} {members : List Value} (known : item ≠ null)
    (found : ∃ m ∈ members, m.looseEq item = true) : foundAmong item members = bool true := by
  unfold foundAmong
  rw [if_neg (mt isNull_iff.1 known), if_pos (List.any_eq_true.2 found)]

theorem foundAmong_of_absent {item : Value} {members : List Value} (known : item ≠ null)
    (absent : ∀ m ∈ members, m.looseEq item = false) :
    foundAmong item members = if members.any isNull then null else bool false := by
  unfold foundAmong
  rw [if_neg (mt isNull_iff.1 known), if_neg (by simpa using absent)]

theorem any_isNull_iff {members : List Value} : members.any isNull = true ↔ null ∈ members := by
  rw [List.any_eq_true]
  exact ⟨fun ⟨m, among, isNull⟩ => isNull_iff.1 isNull ▸ among, fun among => ⟨null, among, rfl⟩⟩

/-- An item that is missing among known members is missing for good, unless it may be equal to one
of them. -/
theorem FillsTo.foundAmong {a a' : Value} {members members' : List Value} (item : a.FillsTo a')
    (each : List.Forall₂ FillsTo members members')
    (settled : a ≠ .null → .null ∉ members → (∀ m ∈ members, m.looseEq a = false) →
      ∀ m ∈ members, m.mayEqual a = false) :
    (Value.foundAmong a members).FillsTo (Value.foundAmong a' members') := by
  by_cases known : a = .null
  · rw [known]
    exact .null _
  have known' := item.not_null known
  by_cases found : ∃ m ∈ members, m.looseEq a = true
  · -- The item and the member that it is equal to are as they were.
    obtain ⟨m, among, equal⟩ := found
    have notNull : m ≠ .null := by
      rintro rfl
      cases a <;> first | exact known rfl | cases equal
    obtain ⟨m', among', fills⟩ := each.exists_of_mem among
    obtain ⟨rfl, rfl⟩ := fills.eq_of_equal item ((looseEq_iff notNull known).1 equal)
    rw [foundAmong_of_found known ⟨m', among, equal⟩, foundAmong_of_found known ⟨m', among', equal⟩]
    exact .same _
  · have absent : ∀ m ∈ members, m.looseEq a = false := by simpa using found
    rw [foundAmong_of_absent known absent]
    split
    · exact .null _
    · rename_i noNull
      rw [any_isNull_iff] at noNull
      have apart := settled known noNull absent
      have absent' : ∀ m' ∈ members', m' ≠ .null ∧ m'.looseEq a' = false := by
        intro m' among'
        obtain ⟨m, among, fills⟩ := each.flip.exists_of_mem among'
        have notNull : m ≠ .null := by
          rintro rfl
          exact noNull among
        have notNull' := fills.not_null notNull
        refine ⟨notNull', Bool.eq_false_iff.2 fun equal => ?_⟩
        have open_ := fills.mayEqual_of_equal item ((looseEq_iff notNull' known').1 equal)
        rw [apart m among] at open_
        cases open_
      rw [foundAmong_of_absent known' fun m' among' => (absent' m' among').2, if_neg]
      · exact .same _
      · exact fun among' => (absent' _ (any_isNull_iff.1 among')).1 rfl

end Value

end RowQuery
