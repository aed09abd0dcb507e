import Mathlib
import RowQuery.Proofs.Degrading.Literal
import RowQuery.Proofs.Number.Division
import RowQuery.Proofs.Sql.DateSum

/-!
# Quotients of decimals

SQLite stores a decimal without a fraction as an integer, and divides integers without a fraction.
The quotient of a decimal and another number is written with a plain `/`, so it depends on how the
operands happen to be stored; outside of the database it is exact.  Numbers that are not stored as
integers are taken as exact here too.
-/

namespace RowQuery

open Number Sql

namespace Sql

/-- A number as a database stores it. -/
inductive StoredNumber where
  | integer (n : Int)
  | real (q : ℚ)

namespace StoredNumber

/-- The number that is stored. -/
def value : StoredNumber → ℚ
  | integer n => n
  | real q => q

/-- A whole number is stored as an integer if it fits. -/
def keep (fits : Int → Bool) (q : ℚ) : StoredNumber :=
  if q.den = 1 ∧ fits q.num then integer q.num else real q

/-- The operator `/`: integers are divided without a fraction, and nothing by zero. -/
def divide? : StoredNumber → StoredNumber → Option StoredNumber
  | integer m, integer n => if n = 0 then none else some (integer (m.tdiv n))
  | a, b => if b.value = 0 then none else some (real (a.value / b.value))

@[simp]
theorem value_keep (fits : Int → Bool) (q : ℚ) : (keep fits q).value = q := by
  unfold keep
  split
  · rename_i whole
    exact Rat.coe_int_num_of_den_eq_one whole.1
  · rfl

theorem keep_intCast (fits : Int → Bool) (n : Int) :
    keep fits n = if fits n then integer n else real n := by
  simp [keep]

/-- A fraction is lost in the quotient of two integers only. -/
theorem exists_divide? {a b : StoredNumber} (nonzero : b.value ≠ 0) :
    ∃ q, a.divide? b = some q ∧
      (q.value = a.value / b.value ↔ ∀ m n, a = integer m → b = integer n → n ∣ m) := by
  cases a with
  | real q =>
      refine ⟨real (q / b.value), ?_, iff_of_true rfl nofun⟩
      rw [divide?]
      · exact if_neg nonzero
      · nofun
  | integer m =>
      cases b with
      | real q => exact ⟨real (m / q), if_neg nonzero, iff_of_true rfl nofun⟩
      | integer n =>
          have present : n ≠ 0 := by simpa [value] using nonzero
          refine ⟨integer (m.tdiv n), if_neg present, ?_⟩
          simp only [value, integer.injEq, forall_eq', forall_apply_eq_imp_iff]
          rw [eq_div_iff (by exact_mod_cast present)]
          norm_cast
          exact ⟨fun same => Dvd.intro_left _ same, Int.tdiv_mul_cancel⟩

end StoredNumber

/-- The characters of a number in decimal notation. -/
def isDecimalChar (c : Char) : Bool :=
  isDigit c || c == '.' || c == '-'

/-- Read a number: an integer if it fits and is written without a point. -/
def readNumber (fits : Int → Bool) : ReaderOf StoredNumber := fun text => do
  let written := text.takeWhile isDecimalChar
  let d ← Decimal.read? written
  return (if '.' ∈ written then .real d.toRat else .keep fits d.toRat,
    text.dropWhile isDecimalChar)

/-- Read a column, with or without its table, or a number. -/
def readNumberOperand (fits : Int → Bool)
    (row : Option (List Char) → List Char → Option StoredNumber) : ReaderOf StoredNumber :=
  fun text =>
    match BuiltinDialect.sqlite.nameQuotation.read text with
    | some (label, '.' :: rest) => do
        let (name, rest) ← BuiltinDialect.sqlite.nameQuotation.read rest
        return (← row (some label) name, rest)
    | some (name, rest) => (row none name).map (·, rest)
    | none => readNumber fits text

/-- Read a quotient between brackets. -/
def readQuotient (operand : ReaderOf StoredNumber) : ReaderOf StoredNumber := fun text => do
  let (l, text) ← operand (← expect "(" text)
  let (r, text) ← operand (← expect " / " text)
  let text ← expect ")" text
  return (← l.divide? r, text)

/-- The literal of a decimal: a real number where it has places. -/
def literalNumber (fits : Int → Bool) (d : Decimal) : StoredNumber :=
  if d.places = 0 then .keep fits d.toRat else .real d.toRat

section Reading

variable {operand : ReaderOf StoredNumber} {l r : String} {a b : StoredNumber}

theorem scans_quotient (left : Scans operand l (some a)) (right : Scans operand r (some b)) :
    Scans (readQuotient operand) (Text.bracketed (spaced [l, "/", r])) (a.divide? b) := by
  intro rest separated
  have second := right _ (separated_behind ")" rfl (.inr (.inl rfl)) rest)
  have first := left _ (separated_behind " / " rfl (.inl rfl) (r.toList ++ (")".toList ++ rest)))
  have written : (Text.bracketed (spaced [l, "/", r])).toList ++ rest =
      "(".toList ++ (l.toList ++ (" / ".toList ++ (r.toList ++ (")".toList ++ rest)))) := by
    simp [Text.bracketed, spaced, Text.join]
  rw [written, readQuotient]
  simp only [Option.bind_eq_bind, expect_append, Option.bind_some, first, second, Option.map_some,
    Option.pure_def]
  cases a.divide? b <;> rfl

theorem point_mem_toText_iff (d : Decimal) : '.' ∈ d.toText.toList ↔ d.places ≠ 0 := by
  have pointless {text : List Char} (digits : ∀ c ∈ text, isDigit c = true) : '.' ∉ text :=
    fun member => by cases digits _ member
  obtain ⟨whole, fraction, text, -, -, written⟩ := d.magnitudeChars_eq
  have each : ∀ c ∈ whole ++ fraction, isDigit c = true := fun c member =>
    isDigit_of_mem_padZeros (text ▸ member)
  rw [List.forall_mem_append] at each
  have magnitude : '.' ∈ d.magnitudeChars ↔ d.places ≠ 0 := by
    rw [written]
    split
    · rename_i none
      exact iff_of_false (pointless each.1) (not_not.2 none)
    · rename_i places
      exact iff_of_true (by simp) places
  rw [Decimal.toList_toText]
  split
  · simpa using magnitude
  · exact magnitude

theorem reads_number (fits : Int → Bool) (d : Decimal) :
    Scans (readNumber fits) d.toText (some (literalNumber fits d)) := by
  intro rest separated
  have each : ∀ c ∈ d.toText.toList, isDecimalChar c = true := by
    intro c member
    rcases Decimal.of_mem_toText member with digit | rfl | rfl
    · simp [isDecimalChar, digit]
    · rfl
    · rfl
  have ends : ∀ c ∈ rest.head?, isDecimalChar c = false := by
    intro c first
    rcases separated c first with rfl | rfl | rfl <;> rfl
  have none : rest.takeWhile isDecimalChar = [] := by
    cases rest with
    | nil => rfl
    | cons c rest => simp [ends c rfl]
  obtain ⟨d', read, signed, places⟩ := d.exists_read?_signed
  have same : d'.toRat = d.toRat := by rw [Decimal.toRat, Decimal.toRat, signed, places]
  rw [readNumber, List.takeWhile_append_of_pos each, List.dropWhile_append_of_pos each, none,
    List.append_nil, Text.dropWhile_of_head ends, read]
  simp only [Option.bind_eq_bind, Option.bind_some, point_mem_toText_iff, same, ite_not]
  rfl

variable {fits : Int → Bool} {row : Option (List Char) → List Char → Option StoredNumber}

theorem unquoted_of_separated {rest : List Char} (separated : Lexer.Separated rest) :
    rest.head? ≠ some '.' ∧ rest.head? ≠ some BuiltinDialect.sqlite.nameQuotation.mark := by
  constructor <;> intro first <;> rcases separated _ first with same | same | same <;> cases same

/-- A column without its table. -/
theorem scans_column {name : String} {stored : StoredNumber}
    (present : row none name.toList = some stored) :
    Scans (readNumberOperand fits row) (BuiltinDialect.sqlite.dialect.quoteName name)
      (some stored) := by
  intro rest separated
  obtain ⟨undotted, unmarked⟩ := unquoted_of_separated separated
  rw [readNumberOperand, (BuiltinDialect.sqlite.quoteName_encloses name).read_eq unmarked]
  split
  · rename_i same
    cases same
    exact absurd rfl undotted
  · rename_i same
    cases same
    rw [present]
  · rename_i same
    cases same

/-- A column behind its table. -/
theorem scans_qualified {label name : String} {stored : StoredNumber}
    (present : row (some label.toList) name.toList = some stored) :
    Scans (readNumberOperand fits row) (BuiltinDialect.sqlite.dialect.quoteName label ++ "." ++
      BuiltinDialect.sqlite.dialect.quoteName name) (some stored) := by
  intro rest separated
  have unmarked := (unquoted_of_separated separated).2
  have written : (BuiltinDialect.sqlite.dialect.quoteName label ++ "." ++
      BuiltinDialect.sqlite.dialect.quoteName name).toList ++ rest =
      (BuiltinDialect.sqlite.dialect.quoteName label).toList ++
        ('.' :: ((BuiltinDialect.sqlite.dialect.quoteName name).toList ++ rest)) := by
    simp
  rw [written, readNumberOperand,
    (BuiltinDialect.sqlite.quoteName_encloses label).read_eq (fun same => by cases same)]
  simp only [(BuiltinDialect.sqlite.quoteName_encloses name).read_eq unmarked, present,
    Option.bind_eq_bind, Option.bind_some, Option.pure_def, Option.map_some]

theorem scans_literal (d : Decimal) :
    Scans (readNumberOperand fits row) d.toText (some (literalNumber fits d)) := by
  intro rest separated
  have unnamed : BuiltinDialect.sqlite.nameQuotation.read (d.toText.toList ++ rest) = none := by
    have unmarked : ∀ c ∈ d.toText.toList, c ≠ '"' := by
      rintro c member rfl
      rcases Decimal.of_mem_toText member with same | same | same <;> cases same
    cases letters : d.toText.toList with
    | nil =>
        cases rest with
        | nil => rfl
        | cons c rest => exact if_neg fun same =>
            (unquoted_of_separated separated).2 (congrArg some same)
    | cons c text => exact if_neg (unmarked c (letters ▸ List.mem_cons_self))
  rw [readNumberOperand, unnamed]
  exact reads_number fits d rest separated

end Reading

end Sql

/-! ## Values -/

namespace Value

/-- A number as a decimal. -/
def asDecimal? : Value → Option Decimal
  | int i => some (.ofInt i)
  | decimal d => some d
  | _ => none

theorem arithmetic_of_asDecimal {a b : Value} {x y : Decimal} (left : a.asDecimal? = some x)
    (right : b.asDecimal? = some y) (oneDecimal : a.kind = .decimal ∨ b.kind = .decimal)
    (op : Arithmetic) : a.arithmetic op b = decimalArithmetic x op y := by
  cases a <;> cases left <;> cases b <;> cases right <;>
    first | rfl | (rcases oneDecimal with impossible | impossible <;> cases impossible)

theorem kind_of_asDecimal {v : Value} {d : Decimal} (number : v.asDecimal? = some d) :
    v.kind = .int ∨ v.kind = .decimal := by
  cases v with
  | int => exact .inl rfl
  | decimal => exact .inr rfl
  | _ => cases number

/-- There is one way to write a number. -/
theorem encode_eq_ok {l : Fragment} {dialect : Dialect} {v : Value} {d : Decimal} {text : String}
    (number : v.asDecimal? = some d) (kind : v.kind = l.kind)
    (encoded : l.encode dialect v = .ok text) : text = d.toText := by
  unfold Fragment.encode Fragment.codec at encoded
  rw [← kind] at encoded
  cases v with
  | int i =>
      change Codec.encodeInt i l.type = _ at encoded
      obtain rfl := Option.some.inj number
      rw [Decimal.toText_ofInt]
      unfold Codec.encodeInt at encoded
      split at encoded
      · split at encoded
        · exact (Except.ok.inj encoded).symm
        · cases encoded
      · exact (Except.ok.inj encoded).symm
  | decimal d' =>
      cases number
      change Codec.encodeDecimal d l.type = _ at encoded
      unfold Codec.encodeDecimal at encoded
      split at encoded
      · exact (Except.ok.inj encoded).symm
      · cases encoded
  | _ => cases number

end Value

/-! ## Pieces -/

namespace CompileContext

variable {c : CompileContext} {operand : ReaderOf StoredNumber}
variable {fits : Int → Bool} {row : Option (List Char) → List Char → Option StoredNumber}

/-- An exact piece of a number that is read as what is stored of it. -/
structure Renders (operand : ReaderOf StoredNumber) (p : Piece) (d : Decimal)
    (stored : StoredNumber) : Prop where
  exact : p.exact = true
  plain : p.condition = false
  known : ∀ v, p.fragment.constant = some v → v.asDecimal? = some d ∧ p.fragment.sql = d.toText
  reads : Scans operand p.fragment.sql (some stored)

theorem Renders.operand_eq {p : Piece} {d : Decimal} {stored : StoredNumber}
    (renders : Renders operand p d stored) : c.operand p = p.fragment := by
  unfold CompileContext.operand
  split
  · rename_i same
    cases (renders.known _ same).1
  · rw [renders.plain, if_neg Bool.false_ne_true]

/-- A number is written alike next to every column. -/
theorem Renders.operandText_eq {p : Piece} {d : Decimal} {stored : StoredNumber}
    (renders : Renders operand p d stored) (dialect : Dialect) (l : Fragment) :
    Fragment.operandText dialect l p.fragment = p.fragment.sql := by
  unfold Fragment.operandText
  split
  · rename_i v constant
    obtain ⟨number, text⟩ := renders.known v constant
    split
    · rename_i same
      simp only [Bool.and_eq_true, decide_eq_true_eq] at same
      split
      · rename_i encoded
        rw [text, Value.encode_eq_ok number same.2 encoded]
      · rfl
    · rfl
  · rfl

/-- The division of numbers, one of them a decimal, is written with a plain operator. -/
theorem arithmetic?_div {dialect : Dialect} {l r : Fragment} {text : String}
    (left : l.kind = .int ∨ l.kind = .decimal) (right : r.kind = .int ∨ r.kind = .decimal)
    (oneDecimal : l.kind = .decimal ∨ r.kind = .decimal)
    (written : Fragment.operandText dialect l r = text) :
    l.arithmetic? dialect .div r = some (dialect.arithmetic l.sql .div text) := by
  have numeric : Fragment.numericArithmetic? dialect l .div r =
      some (dialect.arithmetic l.sql .div text) := by
    unfold Fragment.numericArithmetic?
    have mixed : ¬(l.kind = .int ∧ r.kind = .int) := by
      rintro ⟨first, second⟩
      rw [first, second] at oneDecimal
      simp at oneDecimal
    have number : r.kind.isNumeric = true := by rcases right with same | same <;> rw [same] <;> rfl
    have noScale : ¬(r.kind = .interval ∧ Arithmetic.div = .mul) := nofun
    rw [if_neg noScale, number, written]
    simp only [Bool.not_true, Bool.false_eq_true, if_false, if_neg mixed]
  unfold Fragment.arithmetic? Fragment.codec
  rcases left with same | same <;> rw [same] <;> exact numeric

/-- The literal of a number. -/
theorem renders_constant (dialect : c.dialect = BuiltinDialect.sqlite.dialect) {v : Value}
    {d : Decimal} (number : v.asDecimal? = some d) :
    ∃ p, c.literal v = .ok p ∧ p.fragment.kind = v.kind ∧
      Renders (readNumberOperand fits row) p d (literalNumber fits d) := by
  have written : ∃ type, literalType c.dialect.types v = .ok type ∧
      c.literalText type v = .ok d.toText := by
    rw [dialect]
    cases v with
    | int i =>
        obtain rfl := Option.some.inj number
        obtain ⟨type, resolved, range⟩ := BuiltinDialect.sqlite.exists_resolve_int
        refine ⟨type, resolved, ?_⟩
        change Codec.encodeInt i type = _
        rw [Codec.encodeInt, range, Decimal.toText_ofInt]
        exact if_pos (BuiltinDialect.contains_signed i)
    | decimal d' =>
        obtain rfl := Option.some.inj number
        obtain ⟨type, resolved, fitting⟩ := BuiltinDialect.sqlite.exists_resolve_decimal d'
        exact ⟨type, resolved, if_pos fitting⟩
    | _ => cases number
  obtain ⟨type, typed, encoded⟩ := written
  refine ⟨_, literal_of_encoded ?_ typed encoded, rfl, rfl, rfl, ?_, scans_literal d⟩
  · rcases Value.kind_of_asDecimal number with same | same <;> rw [same] <;> decide
  · intro w same
    cases same
    exact ⟨number, rfl⟩

/-- The name under which a row holds a column, with the table where there are several. -/
def qualifier (c : CompileContext) (binding : Binding) : Option (List Char) :=
  if c.bindings.length > 1 then some binding.label.toList else none

/-- A column of one of the tables. -/
theorem renders_column (dialect : c.dialect = BuiltinDialect.sqlite.dialect) {index : Nat}
    {key : String} {binding : Binding} {column : Column} {d : Decimal} {stored : StoredNumber}
    (bound : c.bindings[index]? = some binding) (found : binding.table.lookup key = .ok column)
    (quoted : column.quotedName = c.dialect.quoteName column.name)
    (present : row (c.qualifier binding) column.name.toList = some stored) :
    ∃ p, c.column index key = .ok p ∧ p.fragment.kind = column.kind ∧
      p.fragment.constant = none ∧ Renders (readNumberOperand fits row) p d stored := by
  have compiled : c.column index key = .ok { fragment :=
      { sql := if c.bindings.length > 1 then
          c.dialect.quoteName binding.label ++ "." ++ column.quotedName else column.quotedName,
        kind := column.kind, type := column.type, name := some column.key } } := by
    simp only [CompileContext.column, bound, found]
    rfl
  refine ⟨_, compiled, rfl, rfl, rfl, rfl, fun _ impossible => ?_, ?_⟩
  · cases impossible
  dsimp only
  rw [quoted, dialect]
  unfold qualifier at present
  split
  · rename_i several
    rw [if_pos several] at present
    exact scans_qualified present
  · rename_i single
    rw [if_neg single] at present
    exact scans_column present

end CompileContext

/-! ## Division -/

namespace Term

variable {c : CompileContext} {scope : Scope} {fits : Int → Bool}
variable {row : Option (List Char) → List Char → Option StoredNumber}

/-- A column of a row or a constant, its number and what is stored of it.  A row that is stored
keeps whole numbers as integers where these fit. -/
inductive IsNumber (c : CompileContext) (scope : Scope) (fits : Int → Bool)
    (row : Option (List Char) → List Char → Option StoredNumber) :
    Term → Value → Decimal → StoredNumber → Prop
  | column {index : Nat} {key : String} {binding : Binding} {column : Column} {v : Value}
      {d : Decimal} (bound : c.bindings[index]? = some binding)
      (found : binding.table.lookup key = .ok column)
      (quoted : column.quotedName = c.dialect.quoteName column.name) (kind : column.kind = v.kind)
      (cell : scope.column index key = .ok v) (number : v.asDecimal? = some d)
      (stored : row (c.qualifier binding) column.name.toList = some (.keep fits d.toRat)) :
      IsNumber c scope fits row (field (param index) key) v d (.keep fits d.toRat)
  | constant {v : Value} {d : Decimal} (number : v.asDecimal? = some d) :
      IsNumber c scope fits row (constant v) v d (literalNumber fits d)

namespace IsNumber

variable {t l r : Term} {v a b : Value} {d x y : Decimal} {stored left right : StoredNumber}

theorem asDecimal? (isNumber : IsNumber c scope fits row t v d stored) :
    v.asDecimal? = some d := by
  cases isNumber with
  | column _ _ _ _ _ number => exact number
  | constant number => exact number

theorem eval_eq (isNumber : IsNumber c scope fits row t v d stored) : t.eval scope = .ok v := by
  cases isNumber with
  | column _ _ _ _ cell => rw [eval, cell]
  | constant => rw [eval]

/-- A number is stored as itself. -/
theorem value_eq (isNumber : IsNumber c scope fits row t v d stored) : stored.value = d.toRat := by
  cases isNumber with
  | column => exact StoredNumber.value_keep fits d.toRat
  | constant =>
      unfold literalNumber
      split
      · exact StoredNumber.value_keep fits d.toRat
      · rfl

theorem exists_piece (dialect : c.dialect = BuiltinDialect.sqlite.dialect)
    (isNumber : IsNumber c scope fits row t v d stored) (params : List String) :
    ∃ p, t.compile c params = .ok p ∧ p.fragment.kind = v.kind ∧
      ((∀ w, t ≠ Term.constant w) → p.fragment.constant = none) ∧
      CompileContext.Renders (readNumberOperand fits row) p d stored := by
  cases isNumber with
  | column bound found quoted kind _ _ present =>
      obtain ⟨p, compiled, kind', opened, renders⟩ :=
        CompileContext.renders_column dialect bound found quoted present
      exact ⟨p, by rw [compile, compiled], kind'.trans kind, fun _ => opened, renders⟩
  | constant number =>
      obtain ⟨p, compiled, kind, renders⟩ := CompileContext.renders_constant dialect number
      exact ⟨p, by rw [compile, compiled], kind, fun other => absurd rfl (other v), renders⟩

/-- The division is written between brackets and is read as the quotient of what is stored. -/
theorem exists_quotient (dialect : c.dialect = BuiltinDialect.sqlite.dialect)
    (first : IsNumber c scope fits row l a x left) (second : IsNumber c scope fits row r b y right)
    (opened : (∀ w, l ≠ Term.constant w) ∨ ∀ w, r ≠ Term.constant w)
    (oneDecimal : a.kind = .decimal ∨ b.kind = .decimal) (params : List String) :
    ∃ p, (arithmetic l .div r).compile c params = .ok p ∧ p.exact = true ∧
      Scans (readQuotient (readNumberOperand fits row)) p.fragment.sql (left.divide? right) := by
  obtain ⟨p, compiled, kind, free, renders⟩ := first.exists_piece dialect params
  obtain ⟨q, compiled', kind', free', renders'⟩ := second.exists_piece dialect params
  have listed : Arithmetic.div.resultKind p.fragment.kind q.fragment.kind = some .decimal := by
    rw [kind, kind']
    rcases Value.kind_of_asDecimal first.asDecimal? with same | same <;>
      rcases Value.kind_of_asDecimal second.asDecimal? with same' | same' <;>
      rw [same, same'] at oneDecimal ⊢ <;> first | rfl | simp at oneDecimal
  have rendered : (c.operand p).arithmetic? c.dialect .div (c.operand q) =
      some (c.dialect.arithmetic p.fragment.sql .div q.fragment.sql) := by
    rw [renders.operand_eq, renders'.operand_eq]
    refine CompileContext.arithmetic?_div ?_ ?_ ?_ (renders'.operandText_eq c.dialect p.fragment)
    · exact kind ▸ Value.kind_of_asDecimal first.asDecimal?
    · exact kind' ▸ Value.kind_of_asDecimal second.asDecimal?
    · rwa [kind, kind']
  obtain ⟨piece, made, exact, text⟩ := CompileContext.arithmetic_of_open
    (opened.imp free free') listed rendered
    (by rw [kind, kind']; exact oneDecimal.imp Eq.symm Eq.symm)
  refine ⟨piece, ?_, exact, ?_⟩
  · rw [compile, compile_exactly_eq_ok_iff.2 ⟨compiled, renders.exact⟩,
      compile_exactly_eq_ok_iff.2 ⟨compiled', renders'.exact⟩]
    exact made
  · rw [text, dialect]
    exact scans_quotient renders.reads renders'.reads

/-- Outside of the database the quotient is exact. -/
theorem eval_quotient (first : IsNumber c scope fits row l a x left)
    (second : IsNumber c scope fits row r b y right)
    (oneDecimal : a.kind = .decimal ∨ b.kind = .decimal) (divisor : y.isZero = false)
    {quotient : Decimal} (exact : quotient.toRat * y.toRat = x.toRat) :
    ∃ host, (arithmetic l .div r).eval scope = .ok (.decimal host) ∧
      host.toRat = x.toRat / y.toRat := by
  obtain ⟨host, found, value⟩ := Decimal.exists_div? divisor exact
  have nonzero : y.toRat ≠ 0 := by
    rw [Ne, Decimal.toRat_eq_zero_iff, divisor]
    exact Bool.false_ne_true
  have known {t : Term} {v : Value} {d : Decimal} (number : v.asDecimal? = some d) :
      t.isUnknown v = false := by
    cases v <;> first | rfl | cases number
  refine ⟨host, ?_, by rw [value, eq_div_iff nonzero, exact]⟩
  rw [eval, first.eval_eq, second.eval_eq]
  simp only [bind, Except.bind, known first.asDecimal?, known second.asDecimal?, if_false,
    Bool.false_eq_true]
  rw [Value.arithmetic_of_asDecimal first.asDecimal? second.asDecimal? oneDecimal]
  simp [Value.decimalArithmetic, divisor, found, Value.orFault]

end IsNumber

/-- The quotient of a decimal and another number, as it is written for SQLite and as it is computed
outside of the database.  Where the quotient is a decimal it is found, and the database finds the
same number unless it has integers on both sides that leave a remainder. -/
theorem quotients_agree_iff (dialect : c.dialect = BuiltinDialect.sqlite.dialect)
    {l r : Term} {a b : Value} {x y : Decimal} {left right : StoredNumber}
    (first : IsNumber c scope fits row l a x left) (second : IsNumber c scope fits row r b y right)
    (opened : (∀ w, l ≠ constant w) ∨ ∀ w, r ≠ constant w)
    (oneDecimal : a.kind = .decimal ∨ b.kind = .decimal) (divisor : y.isZero = false)
    {quotient : Decimal} (exact : quotient.toRat * y.toRat = x.toRat) (params : List String) :
    ∃ p result host, (arithmetic l .div r).compile c params = .ok p ∧ p.exact = true ∧
      Scans (readQuotient (readNumberOperand fits row)) p.fragment.sql (some result) ∧
      (arithmetic l .div r).eval scope = .ok (.decimal host) ∧
      host.toRat = x.toRat / y.toRat ∧
      (result.value = host.toRat ↔
        ∀ m n : Int, left = .integer m → right = .integer n → n ∣ m) := by
  obtain ⟨p, compiled, exactness, reads⟩ :=
    first.exists_quotient dialect second opened oneDecimal params
  obtain ⟨host, evaluated, value⟩ := first.eval_quotient second oneDecimal divisor exact
  have nonzero : right.value ≠ 0 := by
    rw [second.value_eq, Ne, Decimal.toRat_eq_zero_iff, divisor]
    exact Bool.false_ne_true
  obtain ⟨result, divided, agrees⟩ := StoredNumber.exists_divide? (a := left) nonzero
  rw [first.value_eq, second.value_eq, ← value] at agrees
  exact ⟨p, result, host, compiled, exactness, divided ▸ reads, evaluated, value, agrees⟩

section Tariff

/-- The integers that SQLite stores as such. -/
def fitsWord (n : Int) : Bool :=
  -0x8000000000000000 ≤ n && n < 0x8000000000000000

/-- A table with a price. -/
def tariff : Table where
  name := "tariff"
  quotedName := BuiltinDialect.sqlite.dialect.quoteName "tariff"
  columns := [{
    key := "price"
    name := "price"
    quotedName := BuiltinDialect.sqlite.dialect.quoteName "price"
    kind := .decimal
    type := .plainOf "NUMERIC" .numeric }]

def tariffContext : CompileContext where
  dialect := BuiltinDialect.sqlite.dialect
  functions := {}
  bindings := [.ofTable tariff]

def seven : Decimal := .ofInt 7

def threeAndHalf : Decimal := ⟨false, 35, 1, by decide, by decide⟩

/-- The price by two. -/
def halfPrice : Term :=
  arithmetic (field (param 0) "price") .div (constant (.int 2))

/-- Half of a price of seven is three in the database. -/
theorem halfPrice_is_cut :
    ∃ p result host, halfPrice.compile tariffContext ["t"] = .ok p ∧ p.exact = true ∧
      Scans (readQuotient (readNumberOperand fitsWord fun _ _ => some (.keep fitsWord seven.toRat)))
        p.fragment.sql (some result) ∧
      halfPrice.eval { rows := [[("price", .decimal seven)]] } = .ok (.decimal host) ∧
      host.toRat = 7 / 2 ∧ result.value ≠ host.toRat := by
  have price : seven.toRat = (7 : Int) := by
    have parts : seven.signed = 7 ∧ seven.places = 0 := by decide
    rw [Decimal.toRat, parts.1, parts.2, pow_zero, div_one]
  have two : (Decimal.ofInt 2).toRat = (2 : Int) := by
    have parts : (Decimal.ofInt 2).signed = 2 ∧ (Decimal.ofInt 2).places = 0 := by decide
    rw [Decimal.toRat, parts.1, parts.2, pow_zero, div_one]
  have half : threeAndHalf.toRat * (Decimal.ofInt 2).toRat = seven.toRat := by
    rw [two, price]
    norm_num [Decimal.toRat, threeAndHalf, Decimal.signed]
  have number : IsNumber tariffContext { rows := [[("price", .decimal seven)]] } fitsWord
      (fun _ _ => some (.keep fitsWord seven.toRat)) (field (param 0) "price") (.decimal seven)
      seven (.keep fitsWord seven.toRat) :=
    .column rfl (rfl : tariff.lookup "price" = _) rfl rfl rfl rfl rfl
  obtain ⟨p, result, host, compiled, exact, reads, evaluated, value, agrees⟩ :=
    quotients_agree_iff rfl number (.constant (v := .int 2) rfl) (.inl fun _ same => Term.noConfusion same) (.inl rfl)
      (by decide) half ["t"]
  refine ⟨p, result, host, compiled, exact, reads, evaluated, ?_, ?_⟩
  · rw [value, price, two]
    norm_num
  · have whole : StoredNumber.keep fitsWord seven.toRat = .integer 7 := by
      rw [price, StoredNumber.keep_intCast, if_pos (by decide)]
    have divisor : literalNumber fitsWord (Decimal.ofInt 2) = .integer 2 := by
      rw [literalNumber, if_pos (by decide), two, StoredNumber.keep_intCast, if_pos (by decide)]
    rw [Ne, agrees]
    exact fun divides => absurd (divides 7 2 whole divisor) (by decide)

end Tariff

end Term

end RowQuery
