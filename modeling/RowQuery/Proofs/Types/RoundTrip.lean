import RowQuery.Proofs.Number.Reading
import RowQuery.Proofs.Text.Case
import RowQuery.Proofs.Types.Capacity

/-!
# Declared types are read back

A type that a built-in catalog chooses is found again under the text that declares it, whatever the
case of its letters and with blanks around it: its name leads to the registered type, and the
numbers in brackets set the size or the precision that it had.  Names that hold brackets themselves
are found as a whole, before they are cut.
-/

namespace RowQuery

open RowQuery.Number

namespace Text

/-! ## Case and blanks -/

/-- Lowering leaves every character that is not a capital letter. -/
theorem toLower_eq_self_or (c : Char) :
    c.toLower = c ∨ 65 ≤ c.toNat ∧ 65 ≤ c.toLower.toNat := by
  have each : ∀ n < 128, (Char.ofNat n).toLower = Char.ofNat n ∨
      65 ≤ (Char.ofNat n).toNat ∧ 65 ≤ (Char.ofNat n).toLower.toNat := by decide
  rcases Nat.lt_or_ge c.toNat 128 with near | far
  · simpa using each c.toNat near
  · exact .inl (toLower_of_far far)

/-- Characters in front of the letters are lowered to from nothing else. -/
theorem toLower_eq_iff {c k : Char} (small : k.toNat < 65) : c.toLower = k ↔ c = k := by
  constructor
  · rintro rfl
    rcases toLower_eq_self_or c with kept | ⟨-, large⟩
    · exact kept.symm
    · omega
  · rintro rfl
    rcases toLower_eq_self_or c with kept | ⟨large, -⟩
    · exact kept
    · omega

theorem isBlank_toLower (c : Char) : isBlank c.toLower = isBlank c := by
  have each : ∀ n < 128, isBlank (Char.ofNat n).toLower = isBlank (Char.ofNat n) := by decide
  rcases Nat.lt_or_ge c.toNat 128 with near | far
  · simpa using each c.toNat near
  · rw [toLower_of_far far]

/-- A text without letters is the only one that is lowered as it is. -/
theorem eq_of_map_toLower {text plain : List Char} (small : ∀ c ∈ plain, c.toNat < 65)
    (same : text.map Char.toLower = plain.map Char.toLower) : text = plain := by
  induction plain generalizing text with
  | nil => exact List.map_eq_nil_iff.mp same
  | cons k plain ih =>
      rw [List.forall_mem_cons] at small
      obtain ⟨c, rest, rfl, first, others⟩ := List.map_eq_cons_iff.mp same
      have kept : k.toLower = k := (toLower_eq_iff small.1).mpr rfl
      rw [(toLower_eq_iff small.1).mp (first.trans kept), ih small.2 others]

/-- Neither the first nor the last character is a blank, and there is one. -/
structure Bare (text : List Char) : Prop where
  nonempty : text ≠ []
  first : ∀ c ∈ text.head?, isBlank c = false
  last : ∀ c ∈ text.getLast?, isBlank c = false

instance (text : List Char) : Decidable (Bare text) :=
  decidable_of_iff (text ≠ [] ∧ (text.head?.all fun c => !isBlank c) = true ∧
      (text.getLast?.all fun c => !isBlank c) = true)
    ⟨fun ⟨nonempty, first, last⟩ => ⟨nonempty, by simpa [Option.all_eq_true] using first,
        by simpa [Option.all_eq_true] using last⟩,
      fun bare => ⟨bare.nonempty, by simpa [Option.all_eq_true] using bare.first,
        by simpa [Option.all_eq_true] using bare.last⟩⟩

theorem Bare.trimChars_eq {text : List Char} (bare : Bare text) : trimChars text = text :=
  trimChars_of_ends bare.first bare.last

/-- Blanks around a text are trimmed. -/
theorem Bare.trimChars_surrounded {text before after : List Char} (bare : Bare text)
    (front : ∀ c ∈ before, isBlank c = true) (back : ∀ c ∈ after, isBlank c = true) :
    trimChars (before ++ text ++ after) = text := by
  have first : ∀ c ∈ (text ++ after).head?, isBlank c = false := by
    rw [List.head?_append_of_ne_nil _ bare.nonempty]
    exact bare.first
  have last : ∀ c ∈ text.reverse.head?, isBlank c = false := by
    rw [← List.getLast?_eq_head?_reverse]
    exact bare.last
  rw [trimChars, stripWhile, List.append_assoc, List.dropWhile_append_of_pos front,
    dropWhile_of_head first, List.reverse_append,
    List.dropWhile_append_of_pos (by simpa using back), dropWhile_of_head last,
    List.reverse_reverse]

/-- Whether a text is bare does not depend on the case of its letters. -/
theorem Bare.of_map_toLower {text other : List Char} (bare : Bare text)
    (same : other.map Char.toLower = text.map Char.toLower) : Bare other where
  nonempty := by
    rintro rfl
    exact bare.nonempty (List.map_eq_nil_iff.mp same.symm)
  first c member := by
    have heads := congrArg List.head? same
    rw [List.head?_map, List.head?_map, Option.mem_def.mp member] at heads
    obtain ⟨b, head, lowered⟩ := Option.map_eq_some_iff.mp heads.symm
    rw [← isBlank_toLower, ← lowered, isBlank_toLower]
    exact bare.first b head
  last c member := by
    have lasts := congrArg List.getLast? same
    rw [List.getLast?_map, List.getLast?_map, Option.mem_def.mp member] at lasts
    obtain ⟨b, last, lowered⟩ := Option.map_eq_some_iff.mp lasts.symm
    rw [← isBlank_toLower, ← lowered, isBlank_toLower]
    exact bare.last b last

/-- A text is bare if it begins and ends with bare texts. -/
theorem Bare.around {first last : List Char} (begins : Bare first) (middle : List Char)
    (ends : Bare last) : Bare (first ++ middle ++ last) where
  nonempty := by simp [begins.nonempty]
  first c member := by
    rw [List.append_assoc, List.head?_append_of_ne_nil _ begins.nonempty] at member
    exact begins.first c member
  last c member := by
    rw [List.getLast?_append_of_ne_nil _ ends.nonempty] at member
    exact ends.last c member

theorem bare_digits (n : Nat) : Bare (digits n) where
  nonempty := digits_ne_nil n
  first c member := isBlank_of_isDigit (isDigit_of_mem_digits n c (List.mem_of_mem_head? member))
  last c member := isBlank_of_isDigit (isDigit_of_mem_digits n c (List.mem_of_mem_getLast? member))

/-! ## Cutting -/

theorem cutAt?_append {test : Char → Bool} {before after : List Char} {c : Char}
    (absent : ∀ b ∈ before, test b = false) (hit : test c = true) :
    cutAt? test (before ++ c :: after) = some (before, after) := by
  simp [cutAt?_append_left _ absent, cutAt?, hit]

theorem splitAll_of_notMem {separator : Char} {text : List Char} (absent : separator ∉ text) :
    splitAll separator text = [text] := by
  induction text with
  | nil => rfl
  | cons c text ih =>
      rw [List.mem_cons, not_or] at absent
      obtain ⟨other, absent⟩ := absent
      simp [splitAll, Ne.symm other, ih absent]

theorem splitAll_append {separator : Char} {first rest : List Char} (absent : separator ∉ first) :
    splitAll separator (first ++ separator :: rest) = first :: splitAll separator rest := by
  induction first with
  | nil => simp [splitAll]
  | cons c first ih =>
      rw [List.mem_cons, not_or] at absent
      obtain ⟨other, absent⟩ := absent
      simp [splitAll, Ne.symm other, ih absent]

end Text

namespace Number

theorem notMem_digits {n : Nat} {c : Char} (other : isDigit c = false) : c ∉ digits n := by
  intro member
  rw [isDigit_of_mem_digits n c member] at other
  cases other

/-- Digits are read back up to the limit. -/
theorem readBounded?_digits {n limit : Nat} (bounded : n ≤ limit) :
    readBounded? limit (digits n) = some n := by
  unfold readBounded?
  split
  · rename_i rest shape
    have member : '+' ∈ digits n := shape ▸ List.mem_cons_self
    exact absurd member (notMem_digits rfl)
  · simp [readNat?_digits, bounded]

end Number

namespace ColumnType

/-! ## Parameters -/

/-- How the parameters of a type are set: not at all, as a size, or as digits and places. -/
inductive Form : ColumnType → Prop
  | fixed {t : ColumnType} (size : ∀ limit, t.size = some limit → limit.frozen = true)
      (precision : ∀ p, t.precision = some p → p.frozen = true) : Form t
  | sized {t : ColumnType} {max bytes : Nat} (size : t.size = some ⟨max, bytes, false⟩)
      (precision : t.precision = none) (bounded : bytes ≤ max) (small : max ≤ wordMax) : Form t
  | precise {t : ColumnType} {maxDigits maxPlaces digits places : Nat} (size : t.size = none)
      (precision : t.precision = some ⟨maxDigits, maxPlaces, digits, places, false⟩)
      (bounded : digits ≤ maxDigits) (small : maxDigits ≤ halfMax)
      (few : places ≤ maxPlaces) (fewer : places ≤ digits) : Form t

namespace Form

variable {t : ColumnType}

@[simp]
theorem withSynonyms (form : t.Form) (synonyms : List String) : (t.withSynonyms synonyms).Form := by
  cases form with
  | fixed size precision => exact .fixed size precision
  | sized size precision bounded small => exact .sized size precision bounded small
  | precise size precision bounded small few fewer =>
      exact .precise size precision bounded small few fewer

@[simp]
theorem plainOf (name : String) (family : Family) : (plainOf name family).Form :=
  .fixed nofun nofun

@[simp]
theorem integerOf (name : String) (bytes : Nat) : (integerOf name bytes).Form := by
  refine .fixed (fun limit size => ?_) nofun
  obtain rfl := Option.some.inj size
  rfl

@[simp]
theorem longOf (name : String) (family : Family) (bytes : Nat) :
    (longOf name family bytes).Form := by
  refine .fixed (fun limit size => ?_) nofun
  obtain rfl := Option.some.inj size
  rfl

@[simp]
theorem floatingOf (name : String) (digits : Nat) : (floatingOf name digits).Form := by
  refine .fixed nofun (fun p precision => ?_)
  obtain rfl := Option.some.inj precision
  rfl

@[simp]
theorem varyingOf (name : String) (family : Family) {max : Nat} (small : max < 2 ^ 64) :
    (varyingOf name family max).Form :=
  .sized rfl rfl (Nat.min_le_right 255 max) (Nat.le_of_lt_succ small)

@[simp]
theorem decimalOf (name : String) {digits places : Nat} (small : digits < 2 ^ 32)
    (enough : min places 6 ≤ digits) : (decimalOf name digits places).Form :=
  .precise rfl rfl (Nat.min_le_left digits 18) (Nat.le_of_lt_succ small)
    (Nat.min_le_left places 6) (by omega)

end Form

/-- The type with whatever a declaration sets. -/
inductive Setting (u : ColumnType) : ColumnType → Prop
  | plain : Setting u u
  | bytes (bytes : Nat) : Setting u (u.setBytes bytes)
  | precision (digits places : Nat) : Setting u (u.setPrecision digits places)

/-- The type with the numbers that are written behind its name. -/
def withNumbers (t : ColumnType) (numbers : List Nat) : ColumnType :=
  let t :=
    match t.size, numbers[0]? with
    | some _, some n => t.setBytes n
    | _, _ => t
  match t.precision, numbers[0]?.map TypeCatalog.halfWord with
  | some _, some p => t.setPrecision p ((numbers[1]?.map TypeCatalog.halfWord).getD 0)
  | _, _ => t

theorem setBytes_of_frozen {t : ColumnType}
    (frozen : ∀ limit, t.size = some limit → limit.frozen = true) (bytes : Nat) :
    t.setBytes bytes = t := by
  unfold setBytes
  split
  · rename_i limit known
    rw [if_pos (frozen limit known)]
  · rfl

theorem setPrecision_of_frozen {t : ColumnType}
    (frozen : ∀ p, t.precision = some p → p.frozen = true) (digits places : Nat) :
    t.setPrecision digits places = t := by
  unfold setPrecision
  split
  · rename_i p known
    rw [if_pos (frozen p known)]
  · rfl

/-- Numbers behind a fixed type change nothing. -/
theorem withNumbers_of_frozen {t : ColumnType}
    (size : ∀ limit, t.size = some limit → limit.frozen = true)
    (precision : ∀ p, t.precision = some p → p.frozen = true) (numbers : List Nat) :
    t.withNumbers numbers = t := by
  have same : (match t.size, numbers[0]? with
      | some _, some n => t.setBytes n
      | _, _ => t) = t := by
    split
    · exact setBytes_of_frozen size _
    · rfl
  simp only [withNumbers, same]
  split
  · exact setPrecision_of_frozen precision _ _
  · rfl

/-- The parameters behind the name in a declaration. -/
def parameters (t : ColumnType) : List Nat :=
  match t.size, t.precision with
  | some ⟨_, bytes, false⟩, _ => [bytes]
  | _, some ⟨_, _, digits, places, false⟩ => [digits, places]
  | _, _ => []

/-- Numbers with a comma and a blank between them. -/
def listed : List Nat → List Char
  | [] => []
  | [n] => digits n
  | n :: numbers => digits n ++ ',' :: ' ' :: listed numbers

/-- Numbers in brackets, if there are any. -/
def bracketed (numbers : List Nat) : List Char :=
  if numbers = [] then [] else '(' :: listed numbers ++ [')']

theorem lt_of_mem_listed {numbers : List Nat} {c : Char} (member : c ∈ listed numbers) :
    c.toNat < 65 := by
  have digit {n : Nat} (member : c ∈ digits n) : c.toNat < 65 := by
    have digit := isDigit_of_mem_digits n c member
    simp only [isDigit, Bool.and_eq_true, decide_eq_true_eq] at digit
    omega
  induction numbers with
  | nil => cases member
  | cons n numbers ih =>
      cases numbers with
      | nil => exact digit member
      | cons next numbers =>
          simp only [listed, List.mem_append, List.mem_cons] at member
          rcases member with front | rfl | rfl | rest
          · exact digit front
          · decide
          · decide
          · exact ih rest

theorem lt_of_mem_bracketed {numbers : List Nat} {c : Char} (member : c ∈ bracketed numbers) :
    c.toNat < 65 := by
  unfold bracketed at member
  split at member
  · cases member
  · simp only [List.cons_append, List.mem_cons, List.mem_append, List.not_mem_nil, or_false]
      at member
    rcases member with rfl | inside | rfl
    · decide
    · exact lt_of_mem_listed inside
    · decide

theorem toList_declared (t : ColumnType) :
    t.declared.toList = t.name.toList ++ bracketed t.parameters := by
  obtain ⟨name, family, synonyms, size, precision, range⟩ := t
  rcases size with _ | ⟨max, bytes, _ | _⟩ <;>
    rcases precision with _ | ⟨maxDigits, maxPlaces, digits, places, _ | _⟩ <;>
    simp [declared, parameters, bracketed, listed, natText]

theorem Setting.name {u t : ColumnType} (setting : u.Setting t) : t.name = u.name := by
  cases setting with
  | plain => rfl
  | bytes bytes =>
      unfold setBytes
      split
      · split <;> rfl
      · rfl
  | precision digits places =>
      unfold setPrecision
      split
      · split <;> rfl
      · rfl

/-- A type without parameters is not changed by setting them. -/
theorem Setting.eq_of_frozen {u t : ColumnType} (setting : u.Setting t)
    (size : ∀ limit, u.size = some limit → limit.frozen = true)
    (precision : ∀ p, u.precision = some p → p.frozen = true) : t = u := by
  cases setting with
  | plain => rfl
  | bytes bytes => exact setBytes_of_frozen size bytes
  | precision digits places => exact setPrecision_of_frozen precision digits places

theorem parameters_of_frozen {t : ColumnType}
    (size : ∀ limit, t.size = some limit → limit.frozen = true)
    (precision : ∀ p, t.precision = some p → p.frozen = true) : t.parameters = [] := by
  unfold parameters
  split
  · rename_i known
    cases size _ known
  · rename_i known _
    cases precision _ known
  · rfl

/-- The type that a declaration with parameters sets is the one that is read: the registered type
with the numbers in the brackets. -/
theorem Form.withNumbers_parameters {u t : ColumnType} (form : u.Form) (setting : u.Setting t) :
    u.withNumbers t.parameters = t ∧ (∀ n ∈ t.parameters, n ≤ wordMax) ∧
      (u.parameters = [] ↔ t.parameters = []) := by
  cases form with
  | fixed size precision =>
      obtain rfl := setting.eq_of_frozen size precision
      simp [parameters_of_frozen size precision, withNumbers_of_frozen size precision]
  | @sized max default size precision bounded small =>
      obtain ⟨name, family, synonyms, _, _, range⟩ := u
      obtain rfl := size
      obtain rfl := precision
      obtain ⟨bytes, within, rfl⟩ : ∃ bytes ≤ max,
          t = ⟨name, family, synonyms, some ⟨max, bytes, false⟩, none, range⟩ := by
        cases setting with
        | plain => exact ⟨default, bounded, rfl⟩
        | bytes bytes => exact ⟨min bytes max, Nat.min_le_right _ _, rfl⟩
        | precision digits places => exact ⟨default, bounded, rfl⟩
      refine ⟨?_, by simp [parameters]; omega, by simp [parameters]⟩
      simp [withNumbers, parameters, setBytes, Nat.min_eq_left within]
  | @precise maxDigits maxPlaces digits places size precision bounded small few fewer =>
      obtain ⟨name, family, synonyms, _, _, range⟩ := u
      obtain rfl := size
      obtain rfl := precision
      obtain ⟨digits, places, within, few, fewer, rfl⟩ : ∃ digits places, digits ≤ maxDigits ∧
          places ≤ maxPlaces ∧ places ≤ digits ∧
          t = ⟨name, family, synonyms, none,
            some ⟨maxDigits, maxPlaces, digits, places, false⟩, range⟩ := by
        cases setting with
        | plain => exact ⟨digits, places, bounded, few, fewer, rfl⟩
        | bytes bytes => exact ⟨digits, places, bounded, few, fewer, rfl⟩
        | precision d s =>
            exact ⟨min d maxDigits, min (min s maxPlaces) (min d maxDigits), by omega, by omega,
              by omega, rfl⟩
      have word : ∀ n ≤ maxDigits, n ≤ wordMax ∧ TypeCatalog.halfWord n = n := by
        intro n bounded
        simp only [wordMax, halfMax, TypeCatalog.halfWord] at *
        omega
      obtain ⟨digitsWord, digitsHalf⟩ := word digits within
      obtain ⟨placesWord, placesHalf⟩ := word places (fewer.trans within)
      refine ⟨?_, by simp [parameters, digitsWord, placesWord], by simp [parameters]⟩
      simp [withNumbers, parameters, setPrecision, digitsHalf, placesHalf, Nat.min_eq_left within,
        Nat.min_eq_left few, Nat.min_eq_left fewer]

/-- A type without parameters is the same whatever is set. -/
theorem Form.frozen {u : ColumnType} (form : u.Form) (plain : u.parameters = []) :
    (∀ limit, u.size = some limit → limit.frozen = true) ∧
      ∀ p, u.precision = some p → p.frozen = true := by
  cases form with
  | fixed size precision => exact ⟨size, precision⟩
  | sized size => simp [parameters, size] at plain
  | precise size precision => simp [parameters, size, precision] at plain

end ColumnType

namespace TypeCatalog

open ColumnType

variable {c : TypeCatalog} {t : ColumnType}

theorem setting_of_firstOf {family : Family} {kind : Kind}
    (resolved : c.firstOf family kind = .ok t) : ∃ u ∈ c.registered, u.Setting t := by
  unfold firstOf at resolved
  split at resolved
  · rename_i u rest split
    obtain rfl := Except.ok.inj resolved
    exact ⟨_, (mem_family.mp (split ▸ List.mem_cons_self)).1, .plain⟩
  · cases resolved

theorem setting_of_numeric {digits places : Nat} (resolved : c.numeric digits places = .ok t) :
    ∃ u ∈ c.registered, u.Setting t := by
  unfold numeric at resolved
  split at resolved
  · rename_i u found
    obtain rfl := Except.ok.inj resolved
    exact ⟨u, (mem_family.mp (List.mem_of_find?_eq_some found)).1, .precision digits places⟩
  · cases resolved

theorem setting_of_boolean (resolved : c.boolean = .ok t) : ∃ u ∈ c.registered, u.Setting t := by
  unfold boolean at resolved
  split at resolved
  · rename_i u rest split
    obtain rfl := Except.ok.inj resolved
    exact ⟨_, (mem_family.mp (split ▸ List.mem_cons_self)).1, .plain⟩
  · rename_i u rest _ split
    obtain rfl := Except.ok.inj resolved
    exact ⟨_, (mem_family.mp (split ▸ List.mem_cons_self)).1, .plain⟩
  · cases resolved

theorem setting_of_integer {request : TypeRequest} (resolved : c.integer request = .ok t) :
    ∃ u ∈ c.registered, u.Setting t := by
  simp only [integer] at resolved
  split at resolved
  · cases resolved
  · split at resolved
    · rename_i u found
      obtain rfl := Except.ok.inj resolved
      exact ⟨_, (mem_family.mp (List.mem_of_find?_eq_some found)).1, .plain⟩
    · split at resolved
      · cases resolved
      · exact setting_of_numeric resolved

theorem setting_of_floating {request : TypeRequest} (resolved : c.floating request = .ok t) :
    ∃ u ∈ c.registered, u.Setting t := by
  simp only [floating] at resolved
  split at resolved
  · rename_i u found
    obtain rfl := Except.ok.inj resolved
    exact ⟨_, (mem_family.mp (List.mem_of_find?_eq_some found)).1, .plain⟩
  · exact setting_of_numeric resolved

theorem setting_of_sized {family : Family} {bytes : Nat}
    (resolved : c.sized family bytes = .ok t) : ∃ u ∈ c.registered, u.Setting t := by
  by_cases largest : bytes = 0
  · simp only [sized, largest, if_true] at resolved
    split at resolved
    · rename_i u last
      obtain rfl := Except.ok.inj resolved
      exact ⟨_, (mem_family.mp (List.mem_of_getLast? last)).1, .plain⟩
    · cases resolved
  · simp only [sized, largest, if_false] at resolved
    split at resolved
    · rename_i u found
      obtain rfl := Except.ok.inj resolved
      exact ⟨u, (mem_family.mp (List.mem_of_find?_eq_some found)).1, .bytes bytes⟩
    · cases resolved

theorem setting_of_interval (resolved : c.interval = .ok t) : ∃ u ∈ c.registered, u.Setting t := by
  unfold interval at resolved
  split at resolved
  · rename_i u rest split
    obtain rfl := Except.ok.inj resolved
    exact ⟨_, (mem_family.mp (split ▸ List.mem_cons_self)).1, .plain⟩
  · exact setting_of_numeric resolved

theorem setting_of_document (resolved : c.document = .ok t) : ∃ u ∈ c.registered, u.Setting t := by
  unfold document at resolved
  split at resolved
  · rename_i u rest split
    obtain rfl := Except.ok.inj resolved
    exact ⟨_, (mem_family.mp (split ▸ List.mem_cons_self)).1, .plain⟩
  · exact setting_of_sized resolved

/-- What is chosen for a request is a registered type, set or as it is. -/
theorem exists_setting_of_resolve {kind : Kind} {request : TypeRequest}
    (free : request.explicit = none) (resolved : c.resolve kind request = .ok t) :
    ∃ u ∈ c.registered, u.Setting t := by
  simp only [resolve, free] at resolved
  cases kind with
  | bool => exact setting_of_boolean resolved
  | int => exact setting_of_integer resolved
  | float => exact setting_of_floating resolved
  | decimal => exact setting_of_numeric resolved
  | text => exact setting_of_sized resolved
  | bytes => exact setting_of_sized resolved
  | date => exact setting_of_firstOf resolved
  | time => exact setting_of_firstOf resolved
  | datetime => exact setting_of_firstOf resolved
  | interval => exact setting_of_interval resolved
  | json => exact setting_of_document resolved
  | null => cases resolved
  | list => cases resolved

/-! ## Reading a type -/

/-- Case does not matter for the name under which a type is looked up. -/
theorem lookup_congr {first second : String} (same : Text.sameIgnoringCase first second = true) :
    c.lookup first = c.lookup second := by
  have alike : ∀ name, Text.sameIgnoringCase name first = Text.sameIgnoringCase name second := by
    intro name
    rw [Text.sameIgnoringCase, beq_iff_eq] at same
    rw [Text.sameIgnoringCase, Text.sameIgnoringCase, same]
  simp only [lookup, answersTo, alike]

/-- The numbers of a list are read back, also behind a blank. -/
theorem parameterNumbers_listed {numbers : List Nat} (nonempty : numbers ≠ [])
    (small : ∀ n ∈ numbers, n ≤ wordMax) (margin : List Char)
    (blank : ∀ b ∈ margin, Text.isBlank b = true) :
    parameterNumbers (margin ++ listed numbers) = numbers := by
  have absent (n : Nat) {margin : List Char} (blank : ∀ b ∈ margin, Text.isBlank b = true) :
      ',' ∉ margin ++ digits n := by
    rw [List.mem_append, not_or]
    exact ⟨fun member => absurd (blank _ member) (by decide), notMem_digits rfl⟩
  have read {n : Nat} (bounded : n ≤ wordMax) {margin : List Char}
      (blank : ∀ b ∈ margin, Text.isBlank b = true) :
      readBounded? wordMax (Text.trimChars (margin ++ digits n)) = some n := by
    have trimmed : Text.trimChars (margin ++ digits n ++ []) = digits n :=
      (Text.bare_digits n).trimChars_surrounded blank nofun
    rw [List.append_nil] at trimmed
    rw [trimmed, readBounded?_digits bounded]
  unfold parameterNumbers
  induction numbers generalizing margin with
  | nil => exact absurd rfl nonempty
  | cons n numbers ih =>
      rw [List.forall_mem_cons] at small
      cases numbers with
      | nil =>
          rw [listed, Text.splitAll_of_notMem (absent n blank)]
          simp [read small.1 blank]
      | cons next numbers =>
          have front : listed (n :: next :: numbers) =
              digits n ++ ',' :: ([' '] ++ listed (next :: numbers)) := rfl
          rw [front, ← List.append_assoc, Text.splitAll_append (absent n blank),
            List.filterMap_cons, read small.1 blank]
          exact congrArg (n :: ·) (ih (List.cons_ne_nil _ _) small.2 [' '] (by simp [Text.isBlank]))

/-- A name is cut off in front of the brackets, and the last bracket closes them. -/
theorem splitParameters_bracketed {name inside : List Char} (absent : '(' ∉ name) :
    splitParameters (name ++ '(' :: inside ++ [')']) = (Text.trimChars name, inside) := by
  have opened : Text.cutAt? (· == '(') (name ++ '(' :: (inside ++ [')'])) =
      some (name, inside ++ [')']) := by
    refine Text.cutAt?_append (fun b member => ?_) rfl
    exact beq_eq_false_iff_ne.mpr fun same => absent (same ▸ member)
  have closed : Text.cutAt? (· == ')') (inside ++ [')']).reverse = some ([], inside.reverse) := by
    simp [Text.cutAt?]
  rw [List.append_assoc, List.cons_append, splitParameters, opened]
  simp only [closed, List.reverse_reverse]

/-- A type is found by its trimmed text, or else by what stands in front of the brackets, and takes
the numbers inside. -/
theorem ofTypeName_eq {typeName : String} {trimmed base inside : List Char} {u : ColumnType}
    (trim : Text.trimChars typeName.toList = trimmed)
    (split : splitParameters trimmed = (base, inside))
    (found : (c.lookup (String.ofList trimmed) <|> c.lookup (String.ofList base)) = some u) :
    c.ofTypeName typeName none none none = .ok (u.withNumbers (parameterNumbers inside)) := by
  have outcome (t : ColumnType) (first : Option Nat) (places : Nat) :
      (match t.precision, first with
        | some _, some p => (.ok (t.setPrecision p places) : Outcome ColumnType)
        | _, _ => .ok t) =
        .ok (match t.precision, first with
          | some _, some p => t.setPrecision p places
          | _, _ => t) := by
    cases t.precision <;> cases first <;> rfl
  simp only [ofTypeName, trim, split, found, Option.orElse_eq_orElse, Option.orElse_eq_or,
    Option.none_or]
  exact outcome _ _ _

/-- The name of a type leads to it, and to nothing else if parameters stand behind it. -/
structure Tells (c : TypeCatalog) (u : ColumnType) : Prop where
  found : c.lookup u.name = some u
  bare : Text.Bare u.name.toList
  unbracketed : u.parameters ≠ [] → '(' ∉ u.name.toList
  alone : u.parameters ≠ [] → ∀ v ∈ c.types, ∀ name ∈ v.name :: v.synonyms,
    ¬ (u.name.toList ++ ['(']).map Char.toLower <+: name.toList.map Char.toLower

instance (c : TypeCatalog) (u : ColumnType) : Decidable (c.Tells u) :=
  decidable_of_iff (c.lookup u.name = some u ∧ Text.Bare u.name.toList ∧
      (u.parameters ≠ [] → '(' ∉ u.name.toList) ∧
      (u.parameters ≠ [] → ∀ v ∈ c.types, ∀ name ∈ v.name :: v.synonyms,
        ¬ (u.name.toList ++ ['(']).map Char.toLower <+: name.toList.map Char.toLower))
    ⟨fun ⟨found, bare, unbracketed, alone⟩ => ⟨found, bare, unbracketed, alone⟩,
      fun tells => ⟨tells.found, tells.bare, tells.unbracketed, tells.alone⟩⟩

/-- No type answers to a text in which brackets follow the name of a type with parameters. -/
theorem Tells.lookup_bracketed {u : ColumnType} (tells : c.Tells u) (adjustable : u.parameters ≠ [])
    (rest : List Char) {text : List Char}
    (same : text.map Char.toLower = (u.name.toList ++ '(' :: rest).map Char.toLower) :
    c.lookup (String.ofList text) = none := by
  rw [lookup, List.find?_eq_none]
  intro v known answers
  have named : ∃ name ∈ v.name :: v.synonyms,
      Text.sameIgnoringCase name (String.ofList text) = true := by
    simpa [answersTo, List.any_eq_true] using answers
  obtain ⟨name, member, alike⟩ := named
  refine tells.alone adjustable v known name member ⟨rest.map Char.toLower, ?_⟩
  rw [Text.sameIgnoringCase, beq_iff_eq, String.toList_ofList] at alike
  rw [alike, same]
  simp

/-- The declaration of a type without parameters is found as a whole; brackets in it are part of
the name. -/
theorem ofTypeName_of_plain {u : ColumnType} (form : u.Form) (tells : c.Tells u)
    (plain : u.parameters = []) {typeName : String} {name : List Char}
    (trim : Text.trimChars typeName.toList = name)
    (named : name.map Char.toLower = u.name.toList.map Char.toLower) :
    c.ofTypeName typeName none none none = .ok u := by
  have found : c.lookup (String.ofList name) = some u := by
    rw [← tells.found]
    exact lookup_congr (by simpa [Text.sameIgnoringCase] using named)
  obtain ⟨size, precision⟩ := form.frozen plain
  rw [ofTypeName_eq (u := u) trim rfl (by rw [found]; rfl), withNumbers_of_frozen size precision]

/-- The declaration of a type with parameters is found by the name in front of the brackets. -/
theorem ofTypeName_of_bracketed {u : ColumnType} (tells : c.Tells u)
    (adjustable : u.parameters ≠ []) {typeName : String} {name : List Char} {numbers : List Nat}
    (nonempty : numbers ≠ []) (small : ∀ n ∈ numbers, n ≤ wordMax)
    (trim : Text.trimChars typeName.toList = name ++ '(' :: listed numbers ++ [')'])
    (named : name.map Char.toLower = u.name.toList.map Char.toLower) :
    c.ofTypeName typeName none none none = .ok (u.withNumbers numbers) := by
  have absent : '(' ∉ name := by
    intro member
    have lowered : '(' ∈ u.name.toList.map Char.toLower :=
      named ▸ List.mem_map.mpr ⟨_, member, rfl⟩
    obtain ⟨b, known, same⟩ := List.mem_map.mp lowered
    obtain rfl := (Text.toLower_eq_iff (by decide)).mp same
    exact tells.unbracketed adjustable known
  have unknown : c.lookup (String.ofList (name ++ '(' :: listed numbers ++ [')'])) = none := by
    refine tells.lookup_bracketed adjustable (listed numbers ++ [')']) ?_
    simp [named]
  have found : c.lookup (String.ofList name) = some u := by
    rw [← tells.found]
    exact lookup_congr (by simpa [Text.sameIgnoringCase] using named)
  have bare : Text.Bare name := tells.bare.of_map_toLower named
  have split : splitParameters (name ++ '(' :: listed numbers ++ [')']) =
      (Text.trimChars name, listed numbers) := splitParameters_bracketed absent
  rw [bare.trimChars_eq] at split
  rw [ofTypeName_eq trim split (by rw [unknown, found]; rfl)]
  exact congrArg (fun numbers => Except.ok (u.withNumbers numbers))
    (parameterNumbers_listed nonempty small [] nofun)

/-- Whatever a catalog chooses is read back from the text that declares it. -/
theorem ofTypeName_of_setting {u : ColumnType} (form : u.Form) (tells : c.Tells u)
    (setting : u.Setting t) {typeName : String} {before written after : List Char}
    (text : typeName.toList = before ++ written ++ after)
    (front : ∀ b ∈ before, Text.isBlank b = true) (back : ∀ b ∈ after, Text.isBlank b = true)
    (same : written.map Char.toLower = t.declared.toList.map Char.toLower) :
    c.ofTypeName typeName none none none = .ok t := by
  obtain ⟨set, small, fixed⟩ := form.withNumbers_parameters setting
  rw [toList_declared, setting.name, List.map_append] at same
  obtain ⟨name, tail, rfl, named, tailed⟩ := List.map_eq_append_iff.mp same
  obtain rfl := Text.eq_of_map_toLower (fun _ => lt_of_mem_bracketed) tailed
  have bare : Text.Bare name := tells.bare.of_map_toLower named
  by_cases plain : t.parameters = []
  · obtain ⟨size, precision⟩ := form.frozen (fixed.mpr plain)
    obtain rfl := setting.eq_of_frozen size precision
    rw [plain, bracketed, if_pos rfl, List.append_nil] at text
    exact ofTypeName_of_plain form tells plain
      (text ▸ bare.trimChars_surrounded front back) named
  · have closed : Text.Bare [')'] := by decide
    have whole := bare.around ('(' :: listed t.parameters) closed
    rw [bracketed, if_neg plain, List.append_assoc before,
      ← List.append_assoc name, ← List.append_assoc before] at text
    rw [ofTypeName_of_bracketed tells (mt fixed.mp plain) plain small
      (text ▸ whole.trimChars_surrounded front back) named, set]

end TypeCatalog

namespace BuiltinDialect

open TypeCatalog

theorem types_form (d : BuiltinDialect) : ∀ t ∈ d.dialect.types.registered, t.Form := by
  cases d with
  | ansi => simp [dialect, Dialect.ansi, Dialect.ansiTypes]
  | postgres => simp [dialect, Dialect.postgres, Dialect.postgresTypes]
  | sqlite => simp [dialect, Dialect.sqlite, Dialect.sqliteTypes]
  | mysql => simp [dialect, Dialect.mysql, Dialect.mysqlTypes]

/-- The names of the types of a built-in dialect tell them apart. -/
theorem types_tell (d : BuiltinDialect) :
    ∀ t ∈ d.dialect.types.registered, d.dialect.types.Tells t := by
  cases d <;> decide +kernel

/-- The type that a built-in dialect chooses for a request is read back from the text that declares
it, in any case of letters and between any blanks. -/
theorem ofTypeName_declared (d : BuiltinDialect) {kind : Kind} {request : TypeRequest}
    {t : ColumnType} (free : request.explicit = none)
    (resolved : d.dialect.types.resolve kind request = .ok t) (before written after : String)
    (front : ∀ c ∈ before.toList, Text.isBlank c = true)
    (back : ∀ c ∈ after.toList, Text.isBlank c = true)
    (same : Text.sameIgnoringCase written t.declared = true) :
    d.dialect.types.ofTypeName (before ++ written ++ after) none none none = .ok t := by
  obtain ⟨u, known, setting⟩ := exists_setting_of_resolve free resolved
  have text : (before ++ written ++ after).toList =
      before.toList ++ written.toList ++ after.toList := by simp
  exact ofTypeName_of_setting (d.types_form u known) (d.types_tell u known) setting text front back
    (by simpa [Text.sameIgnoringCase] using same)

section

open ColumnType

/-- A decimal of ten digits and two places in MySQL, between blanks and in mixed case. -/
theorem mysql_reads_decimal :
    BuiltinDialect.mysql.dialect.types.ofTypeName " dEciMal(10, 2)\t" none none none =
      .ok (((decimalOf "DECIMAL" 65 30).withSynonyms ["numeric"]).setPrecision 10 2) :=
  have resolved : BuiltinDialect.mysql.dialect.types.resolve .decimal
      { digits := some 10, places := some 2 } =
        .ok (((decimalOf "DECIMAL" 65 30).withSynonyms ["numeric"]).setPrecision 10 2) := rfl
  ofTypeName_declared .mysql rfl resolved " " "dEciMal(10, 2)" "\t" (by simp [Text.isBlank])
    (by simp [Text.isBlank]) (by decide +kernel)

end

end BuiltinDialect

end RowQuery
