import Mathlib.Tactic.Linarith
import RowQuery.Dialect.Builtin
import RowQuery.Proofs.Number.Reading

/-!
# Room in column types

The type that a catalog chooses for a request has room for all that is asked for, and is the first
of its family that has.  A decimal that stands in for a wide integer or a precise double is asked
for as many digits as `decimalDigits` counts; they are enough for the bits, since the factor 0.30103
lies so far above the logarithm of two that the rounding of its products cannot make up for it.
-/

namespace RowQuery

open RowQuery.Number

namespace Number.Decimal

/-- Rounding a quotient takes away at most half a unit. -/
theorem le_roundDiv_mul (num : Nat) {den : Nat} (positive : 0 < den) :
    2 * num ≤ 2 * (roundDiv num den * den) + den := by
  have parts := Nat.div_add_mod' num den
  have small := Nat.mod_lt num positive
  simp only [roundDiv]
  split
  · rw [Nat.add_mul, Nat.one_mul]
    omega
  · rename_i low
    simp only [Bool.or_eq_true, decide_eq_true_eq, not_or] at low
    omega

end Number.Decimal

namespace TypeCatalog

/-! ## Digits for bits -/

/-- A double of 53 digits is off by at most one unit in the last of them, and half of it. -/
theorem le_nearestDouble (n : Nat) : n * (2 ^ 53 - 1) ≤ nearestDouble n * 2 ^ 53 := by
  simp only [nearestDouble]
  by_cases short : n.log2 ≤ 52
  · rw [Nat.sub_eq_zero_of_le short, show Nat.pow 2 0 = 1 from rfl, Decimal.roundDiv_one]
    omega
  · have nonzero : n ≠ 0 := by
      rintro rfl
      simp at short
    have whole : 2 ^ (n.log2 - 52) * 2 ^ 52 ≤ n := by
      rw [← Nat.pow_add, Nat.sub_add_cancel (by omega)]
      exact Nat.log2_self_le nonzero
    have near := Decimal.le_roundDiv_mul n (Nat.two_pow_pos (n.log2 - 52))
    rw [show Nat.pow 2 (n.log2 - 52) = 2 ^ (n.log2 - 52) from rfl]
    generalize 2 ^ (n.log2 - 52) = unit at whole near ⊢
    generalize Decimal.roundDiv n unit * unit = rounded at near ⊢
    simp only [Nat.reducePow, Nat.reduceSub] at whole ⊢
    linarith

/-- The digits are at least 4004 for 13301 bits. -/
theorem le_decimalDigits (bits : Nat) : 4004 * bits ≤ 13301 * decimalDigits bits := by
  have rounded := le_nearestDouble (bits * digitsPerBit)
  have ceiling : nearestDouble (bits * digitsPerBit) ≤ decimalDigits bits * 2 ^ 54 := by
    simp only [decimalDigits, show Nat.pow 2 54 = 2 ^ 54 from rfl]
    omega
  simp only [digitsPerBit] at rounded ceiling
  omega

/-- So many decimal digits count as far as the binary digits do. -/
theorem two_pow_le_ten_pow_decimalDigits (bits : Nat) : 2 ^ bits ≤ 10 ^ decimalDigits bits :=
  pow_le_pow_of_ratio (by decide) (by decide) (by decide +kernel) (le_decimalDigits bits)

end TypeCatalog

/-! ## What a type holds -/

namespace IntRange

/-- The integers of so many bytes. -/
def ofBytes (bytes : Nat) (isSigned : Bool) : IntRange :=
  if isSigned then signed bytes else unsigned bytes

/-- The bounds of so many bytes are in order. -/
theorem ofBytes_min_le_max (bytes : Nat) (isSigned : Bool) :
    (ofBytes bytes isSigned).min ≤ (ofBytes bytes isSigned).max := by
  cases isSigned with
  | true =>
      have half : 0 < Nat.pow 2 (bytes * 8 - 1) := Nat.two_pow_pos _
      simp only [ofBytes, signed, if_true]
      omega
  | false =>
      have whole : 0 < Nat.pow 2 (bytes * 8) := Nat.two_pow_pos _
      simp only [ofBytes, unsigned, Bool.false_eq_true, if_false]
      omega

/-- A range covers another one if it contains every integer of it. -/
theorem covers_iff {r other : IntRange} (ordered : other.min ≤ other.max) :
    r.covers other ↔ ∀ i, other.contains i → r.contains i := by
  simp only [covers, contains, Bool.and_eq_true, decide_eq_true_eq]
  constructor
  · rintro ⟨low, high⟩ i ⟨above, below⟩
    exact ⟨low.trans above, below.trans high⟩
  · intro within
    exact ⟨(within other.min ⟨le_rfl, ordered⟩).1, (within other.max ⟨ordered, le_rfl⟩).2⟩

end IntRange

namespace ColumnType

/-- The figures of a type of fixed size or precision are its ceilings. -/
structure Settled (t : ColumnType) : Prop where
  size : ∀ limit, t.size = some limit → limit.frozen = true → limit.bytes = limit.max
  precision : ∀ p, t.precision = some p → p.frozen = true →
    p.digits = p.maxDigits ∧ p.places = 0

namespace Settled

variable {t : ColumnType}

@[simp]
theorem plainOf (name : String) (family : Family) : (plainOf name family).Settled where
  size := nofun
  precision := nofun

@[simp]
theorem withSynonyms (settled : t.Settled) (synonyms : List String) :
    (t.withSynonyms synonyms).Settled :=
  ⟨settled.size, settled.precision⟩

theorem withRange (settled : t.Settled) (range : IntRange) : (t.withRange range).Settled :=
  ⟨settled.size, settled.precision⟩

theorem fixedBytes (settled : t.Settled) (bytes : Nat) : (t.fixedBytes bytes).Settled where
  size limit set _ := by
    obtain rfl := Option.some.inj set
    rfl
  precision := settled.precision

theorem adjustableBytes (settled : t.Settled) (max default : Nat) :
    (t.adjustableBytes max default).Settled where
  size limit set frozen := by
    obtain rfl := Option.some.inj set
    cases frozen
  precision := settled.precision

theorem fixedPrecision (settled : t.Settled) (digits : Nat) :
    (t.fixedPrecision digits).Settled where
  size := settled.size
  precision p set _ := by
    obtain rfl := Option.some.inj set
    exact ⟨rfl, rfl⟩

theorem adjustablePrecision (settled : t.Settled) (digits places : Nat) :
    (t.adjustablePrecision digits places).Settled where
  size := settled.size
  precision p set frozen := by
    obtain rfl := Option.some.inj set
    cases frozen

theorem setBytes (settled : t.Settled) (bytes : Nat) : (t.setBytes bytes).Settled where
  size limit set frozen := by
    unfold ColumnType.setBytes at set
    split at set
    · rename_i given known
      split at set
      · exact settled.size limit set frozen
      · rename_i free
        obtain rfl := Option.some.inj set
        exact absurd frozen free
    · exact settled.size limit set frozen
  precision := by
    unfold ColumnType.setBytes
    split
    · split
      · exact settled.precision
      · exact settled.precision
    · exact settled.precision

theorem setPrecision (settled : t.Settled) (digits places : Nat) :
    (t.setPrecision digits places).Settled where
  size := by
    unfold ColumnType.setPrecision
    split
    · split
      · exact settled.size
      · exact settled.size
    · exact settled.size
  precision p set frozen := by
    unfold ColumnType.setPrecision at set
    split at set
    · rename_i given known
      split at set
      · exact settled.precision p set frozen
      · rename_i free
        obtain rfl := Option.some.inj set
        exact absurd frozen free
    · exact settled.precision p set frozen

@[simp]
theorem integerOf (name : String) (bytes : Nat) : (integerOf name bytes).Settled :=
  ((plainOf name .integer).fixedBytes bytes).withRange _

@[simp]
theorem floatingOf (name : String) (digits : Nat) : (floatingOf name digits).Settled :=
  (plainOf name .float).fixedPrecision digits

@[simp]
theorem decimalOf (name : String) (digits places : Nat) :
    (decimalOf name digits places).Settled :=
  (plainOf name .numeric).adjustablePrecision digits places

@[simp]
theorem longOf (name : String) (family : Family) (bytes : Nat) :
    (longOf name family bytes).Settled :=
  (plainOf name family).fixedBytes bytes

@[simp]
theorem varyingOf (name : String) (family : Family) (max : Nat) :
    (varyingOf name family max).Settled :=
  (plainOf name family).adjustableBytes max 255

end Settled

/-- The size of the values that a column of the type takes. -/
def heldBytes (t : ColumnType) : Nat :=
  match t.size with
  | some limit => limit.bytes
  | none => unlimited

/-- The digits of the numbers that a column of the type takes. -/
def heldDigits (t : ColumnType) : Nat :=
  match t.precision with
  | some p => p.digits
  | none => 0

/-- A column of the type takes every integer of so many bytes: they are in the range of an integer
type, or the digits of a decimal without places count beyond their bits. -/
def HoldsIntegers (t : ColumnType) (bytes : Nat) (isSigned : Bool) : Prop :=
  (t.family = .integer ∧ ∃ range, t.range = some range ∧
      ∀ i, (IntRange.ofBytes bytes isSigned).contains i → range.contains i) ∨
    (t.family = .numeric ∧ ∃ p, t.precision = some p ∧ p.places = 0 ∧
      2 ^ (bytes * 8) < 10 ^ p.digits)

/-- A size within the ceiling is held once it is set. -/
theorem Settled.le_heldBytes_setBytes {t : ColumnType} (settled : t.Settled) {bytes : Nat}
    (room : bytes ≤ t.maxBytes) : bytes ≤ (t.setBytes bytes).heldBytes := by
  unfold ColumnType.setBytes
  cases size : t.size with
  | none => simpa [heldBytes, maxBytes, size] using room
  | some limit =>
      have ceiling : bytes ≤ limit.max := by simpa [maxBytes, size] using room
      cases frozen : limit.frozen with
      | true => simpa [frozen, heldBytes, size, settled.size limit size frozen] using ceiling
      | false => simpa [frozen, heldBytes] using ceiling

/-- A precision within the ceiling is held once it is set, with at most so many places. -/
theorem Settled.setPrecision_precision {t : ColumnType} (settled : t.Settled)
    {digits : Nat} (places : Nat) (room : digits ≤ t.maxDigits) (nonzero : 0 < digits) :
    ∃ p, (t.setPrecision digits places).precision = some p ∧ digits ≤ p.digits ∧
      p.places ≤ places := by
  unfold ColumnType.setPrecision
  cases precision : t.precision with
  | none =>
      have : digits ≤ 0 := by simpa [maxDigits, precision] using room
      omega
  | some p =>
      have ceiling : digits ≤ p.maxDigits := by simpa [maxDigits, precision] using room
      cases frozen : p.frozen with
      | true =>
          obtain ⟨full, whole⟩ := settled.precision p precision frozen
          exact ⟨p, by simpa [frozen] using precision, by omega, by omega⟩
      | false => exact ⟨_, by simp only [frozen]; rfl, by simpa using ceiling, by simp⟩

theorem Settled.le_heldDigits_setPrecision {t : ColumnType} (settled : t.Settled)
    {digits : Nat} (places : Nat) (room : digits ≤ t.maxDigits) :
    digits ≤ (t.setPrecision digits places).heldDigits := by
  rcases Nat.eq_zero_or_pos digits with rfl | nonzero
  · exact Nat.zero_le _
  · obtain ⟨p, set, enough, -⟩ := settled.setPrecision_precision places room nonzero
    simpa [heldDigits, set] using enough

theorem setPrecision_family (t : ColumnType) (digits places : Nat) :
    (t.setPrecision digits places).family = t.family := by
  unfold setPrecision
  split
  · split <;> rfl
  · rfl

theorem setBytes_family (t : ColumnType) (bytes : Nat) : (t.setBytes bytes).family = t.family := by
  unfold setBytes
  split
  · split <;> rfl
  · rfl

end ColumnType

namespace BuiltinDialect

open ColumnType

/-- The types of a built-in dialect are settled. -/
theorem types_settled (d : BuiltinDialect) : ∀ t ∈ d.dialect.types.registered, t.Settled := by
  cases d with
  | ansi => simp [dialect, Dialect.ansi, Dialect.ansiTypes]
  | postgres => simp [dialect, Dialect.postgres, Dialect.postgresTypes]
  | sqlite => simp [dialect, Dialect.sqlite, Dialect.sqliteTypes]
  | mysql => simp [dialect, Dialect.mysql, Dialect.mysqlTypes]

/-- The integer types of a built-in dialect have a range. -/
theorem types_ranged (d : BuiltinDialect) :
    ∀ t ∈ d.dialect.types.registered, t.family = .integer → t.range.isSome := by
  cases d <;> decide

end BuiltinDialect

/-! ## The choice of a type -/

namespace TypeCatalog

variable {c : TypeCatalog} {t : ColumnType}

theorem mem_family {family : Family} :
    t ∈ c.family family ↔ t ∈ c.registered ∧ t.family = family := by
  simp [TypeCatalog.family]

/-- The type is the first of its family that has enough room. -/
def IsFirst (c : TypeCatalog) (family : Family) (room : ColumnType → Prop) (t : ColumnType) :
    Prop :=
  ∃ before after, c.family family = before ++ t :: after ∧ room t ∧ ∀ u ∈ before, ¬ room u

/-- What a search through a family finds is the first type that passes the test. -/
theorem isFirst_of_find? {family : Family} {test : ColumnType → Bool} {room : ColumnType → Prop}
    (tells : ∀ u ∈ c.family family, test u = true ↔ room u)
    (found : (c.family family).find? test = some t) : c.IsFirst family room t := by
  obtain ⟨passes, before, after, split, refused⟩ := List.find?_eq_some_iff_append.mp found
  refine ⟨before, after, split, ?_, fun u earlier => ?_⟩
  · exact (tells t (split ▸ by simp)).mp passes
  · rw [← tells u (split ▸ List.mem_append_left _ earlier)]
    simpa using refused u earlier

theorem IsFirst.mem {family : Family} {room : ColumnType → Prop}
    (first : c.IsFirst family room t) : t ∈ c.family family := by
  obtain ⟨before, after, split, -⟩ := first
  simp [split]

/-- The type has room for all integers of so many bytes.  It is the first integer type that has;
or none up to eight bytes has, and it is the first decimal type with the digits that are asked for
in that case. -/
def DeliversIntegers (c : TypeCatalog) (bytes : Nat) (isSigned : Bool) (t : ColumnType) : Prop :=
  let digits := decimalDigits (bytes * 8) + 1
  t.HoldsIntegers bytes isSigned ∧
    (c.IsFirst .integer (·.HoldsIntegers bytes isSigned) t ∨
      (bytes ≤ 8 → ∀ u ∈ c.family .integer, ¬ u.HoldsIntegers bytes isSigned) ∧
        ∃ u, c.IsFirst .numeric (digits ≤ ·.maxDigits) u ∧ t = u.setPrecision digits 0)

/-- The type has so many binary digits and is the first floating type that has; or none has, and it
is the first decimal type with twice as many decimal digits as count as far. -/
def DeliversDigits (c : TypeCatalog) (bits : Nat) (t : ColumnType) : Prop :=
  let digits := decimalDigits bits
  c.IsFirst .float (bits ≤ ·.maxDigits) t ∨
    (∀ u ∈ c.family .float, u.maxDigits < bits) ∧
      2 ^ bits ≤ 10 ^ digits ∧ digits * 2 ≤ t.heldDigits ∧
        ∃ u, c.IsFirst .numeric (digits * 2 ≤ ·.maxDigits) u ∧
          t = u.setPrecision (digits * 2) digits

/-- The type holds values of so many bytes, and is the first of its family that can; zero bytes
stand for the last of the family. -/
def DeliversBytes (c : TypeCatalog) (family : Family) (bytes : Nat) (t : ColumnType) : Prop :=
  if bytes = 0 then (c.family family).getLast? = some t
  else bytes ≤ t.heldBytes ∧
    ∃ u, c.IsFirst family (bytes ≤ ·.maxBytes) u ∧ t = u.setBytes bytes

/-- An integer type with a range passes the test if it holds all the integers. -/
theorem holdsInteger_iff {bytes : Nat} {isSigned : Bool} (narrow : bytes ≤ 8)
    (integral : t.family = .integer) (ranged : t.range.isSome) :
    holdsInteger bytes isSigned t = true ↔ t.HoldsIntegers bytes isSigned := by
  obtain ⟨range, known⟩ := Option.isSome_iff_exists.mp ranged
  have wanted : (if isSigned then IntRange.signed (min bytes 8) else
      IntRange.unsigned (min bytes 8)) = IntRange.ofBytes bytes isSigned := by
    rw [Nat.min_eq_left narrow, IntRange.ofBytes]
  simp only [holdsInteger, known, wanted, narrow, decide_true, Bool.true_and,
    IntRange.covers_iff (IntRange.ofBytes_min_le_max bytes isSigned),
    ColumnType.HoldsIntegers, integral, true_and, Option.some.injEq, exists_eq_left', reduceCtorEq,
    false_and, or_false]

/-- An integer type with a range passes for at most eight bytes. -/
theorem narrow_of_holdsInteger {bytes : Nat} {isSigned : Bool} (ranged : t.range.isSome)
    (holds : holdsInteger bytes isSigned t = true) : bytes ≤ 8 := by
  obtain ⟨range, known⟩ := Option.isSome_iff_exists.mp ranged
  simp only [holdsInteger, known, Bool.and_eq_true, decide_eq_true_eq] at holds
  exact holds.1

section

variable (settled : ∀ u ∈ c.registered, u.Settled)
include settled

/-- A decimal type is the first with the digits, set to them. -/
theorem numeric_eq_ok {digits places : Nat} (chosen : c.numeric digits places = .ok t) :
    ∃ u, c.IsFirst .numeric (digits ≤ ·.maxDigits) u ∧ u.Settled ∧ digits ≤ u.maxDigits ∧
      u.family = .numeric ∧ t = u.setPrecision digits places := by
  unfold numeric at chosen
  split at chosen
  · rename_i u found
    obtain rfl := Except.ok.inj chosen
    have first : c.IsFirst .numeric (digits ≤ ·.maxDigits) u :=
      isFirst_of_find? (by simp) found
    obtain ⟨known, family⟩ := mem_family.mp first.mem
    exact ⟨u, first, settled u known, by simpa using List.find?_some found, family, rfl⟩
  · cases chosen

theorem deliversBytes_of_sized {family : Family} {bytes : Nat}
    (chosen : c.sized family bytes = .ok t) : c.DeliversBytes family bytes t := by
  unfold DeliversBytes
  by_cases largest : bytes = 0
  · simp only [sized, largest, if_true] at chosen ⊢
    split at chosen
    · rename_i u last
      obtain rfl := Except.ok.inj chosen
      exact last
    · cases chosen
  · simp only [sized, largest, if_false] at chosen ⊢
    split at chosen
    · rename_i u found
      obtain rfl := Except.ok.inj chosen
      have first : c.IsFirst family (bytes ≤ ·.maxBytes) u := isFirst_of_find? (by simp) found
      have room : bytes ≤ u.maxBytes := by simpa using List.find?_some found
      have known := (mem_family.mp first.mem).1
      exact ⟨(settled u known).le_heldBytes_setBytes room, u, first, rfl⟩
    · cases chosen

theorem deliversDigits_of_floating {request : TypeRequest}
    (chosen : c.floating request = .ok t) :
    c.DeliversDigits (request.digits.getD defaultFloatDigits) t := by
  simp only [floating] at chosen
  generalize request.digits.getD defaultFloatDigits = bits at chosen ⊢
  split at chosen
  · rename_i u found
    obtain rfl := Except.ok.inj chosen
    exact .inl (isFirst_of_find? (by simp) found)
  · rename_i imprecise
    obtain ⟨u, first, settled, room, -, rfl⟩ := numeric_eq_ok settled chosen
    refine .inr ⟨fun v known => ?_, two_pow_le_ten_pow_decimalDigits bits,
      settled.le_heldDigits_setPrecision _ room, u, first, rfl⟩
    simpa using List.find?_eq_none.mp imprecise v known

theorem deliversIntegers_of_integer {request : TypeRequest}
    (ranged : ∀ u ∈ c.registered, u.family = .integer → u.range.isSome)
    (chosen : c.integer request = .ok t) :
    c.DeliversIntegers (max (request.bytes.getD defaultIntBytes) 1)
      (request.isSigned.getD true) t := by
  simp only [integer] at chosen
  generalize max (request.bytes.getD defaultIntBytes) 1 = bytes at chosen ⊢
  generalize request.isSigned.getD true = isSigned at chosen ⊢
  have tells (narrow : bytes ≤ 8) : ∀ u ∈ c.family .integer,
      holdsInteger bytes isSigned u = true ↔ u.HoldsIntegers bytes isSigned := by
    intro u known
    obtain ⟨known, integral⟩ := mem_family.mp known
    exact holdsInteger_iff narrow integral (ranged u known integral)
  split at chosen
  · cases chosen
  · split at chosen
    · rename_i u found
      obtain rfl := Except.ok.inj chosen
      obtain ⟨known, integral⟩ := mem_family.mp (List.mem_of_find?_eq_some found)
      have narrow := narrow_of_holdsInteger (ranged u known integral) (List.find?_some found)
      have first := isFirst_of_find? (tells narrow) found
      obtain ⟨-, -, -, holds, -⟩ := id first
      exact ⟨holds, .inl first⟩
    · rename_i narrower
      split at chosen
      · cases chosen
      · obtain ⟨u, first, settled, room, family, rfl⟩ := numeric_eq_ok settled chosen
        obtain ⟨p, set, enough, whole⟩ := settled.setPrecision_precision 0 room (by omega)
        refine ⟨.inr ⟨(u.setPrecision_family _ _).trans family, p, set, by omega, ?_⟩,
          .inr ⟨fun narrow v known holds => ?_, u, first, rfl⟩⟩
        · calc 2 ^ (bytes * 8) ≤ 10 ^ decimalDigits (bytes * 8) :=
                two_pow_le_ten_pow_decimalDigits _
            _ < 10 ^ (decimalDigits (bytes * 8) + 1) :=
                Nat.pow_lt_pow_right (by decide) (Nat.lt_succ_self _)
            _ ≤ 10 ^ p.digits := Nat.pow_le_pow_right (by decide) enough
        · exact List.find?_eq_none.mp narrower v known ((tells narrow v known).mpr holds)

end

/-- No decimal type has so many digits. -/
theorem maxDigits_lt_of_numeric {digits places : Nat} {fault : Fault}
    (refused : c.numeric digits places = .error fault) :
    ∀ u ∈ c.family .numeric, u.maxDigits < digits := by
  unfold numeric at refused
  split at refused
  · cases refused
  · rename_i absent
    intro u known
    simpa using List.find?_eq_none.mp absent u known

/-- No integer type holds all integers of so many bytes, and no decimal type has the digits for
them, or the bits are more than a 32-bit word counts. -/
def LacksIntegers (c : TypeCatalog) (bytes : Nat) (isSigned : Bool) : Prop :=
  (bytes ≤ 8 → ∀ u ∈ c.family .integer, ¬ u.HoldsIntegers bytes isSigned) ∧
    (halfMax < bytes * 8 ∨ ∀ u ∈ c.family .numeric, u.maxDigits < decimalDigits (bytes * 8) + 1)

/-- No floating type has so many binary digits, and no decimal type twice as many decimal digits as
count as far. -/
def LacksDigits (c : TypeCatalog) (bits : Nat) : Prop :=
  (∀ u ∈ c.family .float, u.maxDigits < bits) ∧
    ∀ u ∈ c.family .numeric, u.maxDigits < decimalDigits bits * 2

/-- No type of the family holds so many bytes; if the last one is asked for, there is none. -/
def LacksBytes (c : TypeCatalog) (family : Family) (bytes : Nat) : Prop :=
  if bytes = 0 then c.family family = [] else ∀ u ∈ c.family family, u.maxBytes < bytes

theorem lacksBytes_of_sized {family : Family} {bytes : Nat} {fault : Fault}
    (refused : c.sized family bytes = .error fault) : c.LacksBytes family bytes := by
  unfold LacksBytes
  by_cases largest : bytes = 0
  · simp only [sized, largest, if_true] at refused ⊢
    split at refused
    · cases refused
    · rename_i absent
      exact List.getLast?_eq_none_iff.mp absent
  · simp only [sized, largest, if_false] at refused ⊢
    split at refused
    · cases refused
    · rename_i absent
      intro u known
      simpa using List.find?_eq_none.mp absent u known

theorem lacksDigits_of_floating {request : TypeRequest} {fault : Fault}
    (refused : c.floating request = .error fault) :
    c.LacksDigits (request.digits.getD defaultFloatDigits) := by
  simp only [floating] at refused
  split at refused
  · cases refused
  · rename_i imprecise
    refine ⟨fun u known => ?_, maxDigits_lt_of_numeric refused⟩
    simpa using List.find?_eq_none.mp imprecise u known

theorem lacksIntegers_of_integer {request : TypeRequest} {fault : Fault}
    (ranged : ∀ u ∈ c.registered, u.family = .integer → u.range.isSome)
    (refused : c.integer request = .error fault) :
    c.LacksIntegers (max (request.bytes.getD defaultIntBytes) 1)
      (request.isSigned.getD true) := by
  simp only [integer] at refused
  generalize max (request.bytes.getD defaultIntBytes) 1 = bytes at refused ⊢
  generalize request.isSigned.getD true = isSigned at refused ⊢
  split at refused
  · rename_i wide
    have : ¬ bytes ≤ 8 := by simp only [halfMax] at wide; omega
    exact ⟨fun narrow => absurd narrow this, .inl (by omega)⟩
  · split at refused
    · cases refused
    · rename_i narrower
      refine ⟨fun narrow u known holds => ?_, ?_⟩
      · obtain ⟨registered, integral⟩ := mem_family.mp known
        exact List.find?_eq_none.mp narrower u known
          ((holdsInteger_iff narrow integral (ranged u registered integral)).mpr holds)
      · split at refused
        · rename_i wide
          exact .inl wide
        · exact .inr (maxDigits_lt_of_numeric refused)

/-- What a type has to hold for a request of a kind of values. -/
def Delivers (c : TypeCatalog) (kind : Kind) (request : TypeRequest) (t : ColumnType) : Prop :=
  match kind with
  | .int =>
      c.DeliversIntegers (max (request.bytes.getD defaultIntBytes) 1)
        (request.isSigned.getD true) t
  | .float => c.DeliversDigits (request.digits.getD defaultFloatDigits) t
  | .text => c.DeliversBytes .varchar (request.bytes.getD defaultTextBytes) t
  | .bytes => c.DeliversBytes .binary (request.bytes.getD defaultTextBytes) t
  | _ => True

/-- What is missing where a request is refused. -/
def Lacks (c : TypeCatalog) (kind : Kind) (request : TypeRequest) : Prop :=
  match kind with
  | .int =>
      c.LacksIntegers (max (request.bytes.getD defaultIntBytes) 1) (request.isSigned.getD true)
  | .float => c.LacksDigits (request.digits.getD defaultFloatDigits)
  | .text => c.LacksBytes .varchar (request.bytes.getD defaultTextBytes)
  | .bytes => c.LacksBytes .binary (request.bytes.getD defaultTextBytes)
  | _ => True

/-- The type chosen for a request holds all that is asked for and is the first of its family with
that much room.  A decimal type that stands in for others has room if it has the digits that it is
asked for, one more than `decimalDigits` counts in the case of integers.  A request is refused only
where no type has room. -/
theorem resolve_delivers {kind : Kind} {request : TypeRequest}
    (settled : ∀ u ∈ c.registered, u.Settled)
    (ranged : ∀ u ∈ c.registered, u.family = .integer → u.range.isSome)
    (free : request.explicit = none) :
    (∀ t, c.resolve kind request = .ok t → c.Delivers kind request t) ∧
      ∀ fault, c.resolve kind request = .error fault → c.Lacks kind request := by
  simp only [resolve, free, Delivers, Lacks]
  cases kind with
  | int =>
      exact ⟨fun t => deliversIntegers_of_integer settled ranged,
        fun fault => lacksIntegers_of_integer ranged⟩
  | float =>
      exact ⟨fun t => deliversDigits_of_floating settled, fun fault => lacksDigits_of_floating⟩
  | text => exact ⟨fun t => deliversBytes_of_sized settled, fun fault => lacksBytes_of_sized⟩
  | bytes => exact ⟨fun t => deliversBytes_of_sized settled, fun fault => lacksBytes_of_sized⟩
  | _ => exact ⟨fun _ _ => trivial, fun _ _ => trivial⟩

section

open ColumnType

/-- Two decimal types, of 20 and 40 digits. -/
def twoDecimals : TypeCatalog where
  name := "custom"
  registered := [decimalOf "N20" 20 20, decimalOf "N40" 40 40]

/-- A decimal of 20 digits without places holds all unsigned integers of eight bytes, but the type
of 40 digits is taken for them, since 21 digits are asked for. -/
theorem twoDecimals_passes_over :
    twoDecimals.resolve .int { bytes := some 8, isSigned := some false } =
        .ok ((decimalOf "N40" 40 40).setPrecision 21 0) ∧
      twoDecimals.family .numeric = [decimalOf "N20" 20 20, decimalOf "N40" 40 40] ∧
      ((decimalOf "N20" 20 20).setPrecision 20 0).HoldsIntegers 8 false :=
  ⟨by rfl, by rfl, .inr ⟨rfl, _, rfl, rfl, by decide⟩⟩

/-- An unsigned integer of eight bytes becomes a decimal of 21 digits in PostgreSQL. -/
theorem postgresTypes_deliver_unsigned :
    Dialect.postgresTypes.Delivers .int { bytes := some 8, isSigned := some false }
      (((decimalOf "NUMERIC" 1000 1000).withSynonyms ["decimal"]).setPrecision 21 0) :=
  (resolve_delivers (BuiltinDialect.types_settled .postgres) (BuiltinDialect.types_ranged .postgres)
    rfl).1 _ rfl

/-- A type that is put together with a size below its ceiling, and fixed there, is not settled, and
is taken for texts that it cannot hold. -/
theorem resolve_of_unsettled (c : TypeCatalog)
    (only : c.family .varchar = [⟨"SHORT", .varchar, [], some ⟨100, 10, true⟩, none, none⟩]) :
    ∃ t, c.resolve .text { bytes := some 50 } = .ok t ∧ t.heldBytes = 10 := by
  refine ⟨_, by simp [resolve, sized, only, ColumnType.maxBytes]; rfl, rfl⟩

end

end TypeCatalog

end RowQuery
