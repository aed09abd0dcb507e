import RowQuery.Proofs.Codec.RoundTrip
import RowQuery.Proofs.Ingredients
import RowQuery.Proofs.Spelling.Expression

/-!
# Integers as terms

An integer that stands alone in an ORDER BY or a GROUP BY clause is the position of an output
column.  The SQL of a term is an integer only if the compiler knows its value, and if that is
written as an integer.  Whatever the database computes has a name, a bracket or a word in it.
-/

namespace RowQuery

open RowQuery.Number RowQuery.Sql

/-! ## Texts -/

namespace Sql

/-- The text is an integer. -/
def isInteger (sql : String) : Bool :=
  (readInt? sql.toList).isSome

/-- A character that integers consist of. -/
def inIntegers (c : Char) : Bool :=
  isDigit c || c == '-' || c == '+'

variable {sql : String}

/-- One other character is enough. -/
theorem isInteger_eq_false {c : Char} (among : c ∈ sql.toList) (other : inIntegers c = false) :
    isInteger sql = false := by
  have unread {figures : List Char} (inside : c ∈ figures) : readNat? figures = none := by
    rw [inIntegers, Bool.or_eq_false_iff, Bool.or_eq_false_iff] at other
    have mixed : figures.all isDigit = false :=
      List.all_eq_false.2 ⟨c, inside, by rw [other.1.1]; exact Bool.false_ne_true⟩
    rw [readNat?, mixed, Bool.not_false, Bool.or_true, if_pos rfl]
  have unsigned {sign : Char} {figures : List Char} (inside : c ∈ sign :: figures)
      (isSign : inIntegers sign = true) : c ∈ figures := by
    rcases List.mem_cons.1 inside with rfl | inside
    · rw [other] at isSign
      cases isSign
    · exact inside
  unfold isInteger readInt?
  split
  · rename_i same
    rw [unread (unsigned (same ▸ among) rfl)]
    rfl
  · rename_i same
    rw [unread (unsigned (same ▸ among) rfl)]
    rfl
  · rw [unread among]
    rfl

/-- A text with a fixed beginning. -/
theorem isInteger_append {front back : String} (mixed : front.toList.all inIntegers = false) :
    isInteger (front ++ back) = false := by
  obtain ⟨c, among, other⟩ := List.all_eq_false.1 mixed
  rw [Bool.not_eq_true] at other
  exact isInteger_eq_false (by rw [String.toList_append]; exact List.mem_append_left _ among) other

theorem isInteger_wrapped {front back : String} (mixed : front.toList.all inIntegers = false) :
    isInteger (front ++ sql ++ back) = false := by
  rw [String.append_assoc]
  exact isInteger_append mixed

theorem isInteger_bracketed : isInteger (Text.bracketed sql) = false :=
  isInteger_wrapped rfl

theorem isInteger_callText (function : String) (arguments : List String) :
    isInteger (callText function arguments) = false :=
  isInteger_eq_false (c := '(') (by simp [callText]) rfl

theorem isInteger_encloses {q : Quotation} {content : List Char}
    (encloses : q.Encloses content sql) (other : inIntegers q.mark = false) :
    isInteger sql = false :=
  isInteger_eq_false (by rw [encloses]; exact List.mem_cons_self) other

theorem isInteger_intText (i : Int) : isInteger (intText i) = true := by
  rw [isInteger, readInt?_intText]
  rfl

/-- A decimal is an integer if it has no places. -/
theorem isInteger_decimal (d : Decimal) : isInteger d.toText = decide (d.places = 0) := by
  obtain ⟨whole, fraction, text, present, -, written⟩ := d.magnitudeChars_eq
  have digits : ∀ c ∈ whole ++ fraction, isDigit c = true := fun c member =>
    isDigit_of_mem_padZeros (text ▸ member)
  by_cases places : d.places = 0
  · rw [if_pos places] at written
    have read : readNat? whole = some (digitsValue whole) := by
      have every : whole.all isDigit = true :=
        List.all_eq_true.2 fun c member => digits c (List.mem_append_left _ member)
      simp [readNat?, present, every]
    rw [decide_eq_true places, isInteger, Decimal.toList_toText, written]
    split
    · rw [readInt?, read]
      rfl
    · rw [readInt?_of_digits fun c member => digits c (List.mem_append_left _ member), read]
      rfl
  · rw [if_neg places] at written
    rw [decide_eq_false places]
    refine isInteger_eq_false (c := '.') ?_ rfl
    rw [Decimal.toList_toText, written]
    split <;> simp

theorem point_mem_positional (s : Binary64.Shortest) : '.' ∈ Binary64.positional s 1 := by
  have long (fraction : List Char) :
      (fraction ++ List.replicate (1 - fraction.length) '0').isEmpty = false := by
    cases fraction <;> rfl
  unfold Binary64.positional
  dsimp only
  split
  all_goals
    rw [long, if_neg Bool.false_ne_true]
    exact List.mem_append_right _ List.mem_cons_self

theorem exponent_mem_scientific (s : Binary64.Shortest) : 'e' ∈ Binary64.scientific s [] :=
  List.mem_append_right _ List.mem_cons_self

/-- The exact form of a double has a point or an exponent. -/
theorem isInteger_exactText {x : Float} (number : x.isNaN = false) (finite : x.isInf = false) :
    isInteger (Binary64.exactText x) = false := by
  have magnitude (s : Binary64.Shortest) : ∃ c ∈
      (if s.digits = 0 || (-3 ≤ Binary64.leading s && Binary64.leading s ≤ 16) then
        Binary64.positional s 1 else Binary64.scientific s []), inIntegers c = false := by
    split
    · exact ⟨'.', point_mem_positional s, rfl⟩
    · exact ⟨'e', exponent_mem_scientific s, rfl⟩
  unfold Binary64.exactText Binary64.write
  dsimp only
  rw [number, finite, if_neg Bool.false_ne_true, if_neg Bool.false_ne_true]
  obtain ⟨c, among, other⟩ := magnitude _
  refine isInteger_eq_false ?_ other
  rw [String.toList_append, String.toList_ofList]
  exact List.mem_append_right _ among

end Sql

/-! ## Operations of the dialects -/

namespace BuiltinDialect

variable {d : BuiltinDialect} {l r sql : String}

theorem isInteger_quoteName (name : String) : isInteger (d.dialect.quoteName name) = false :=
  isInteger_encloses (d.quoteName_encloses name) (by cases d <;> rfl)

theorem isInteger_quoteText (text : String) : isInteger (d.dialect.quoteText text) = false :=
  isInteger_encloses (d.quoteText_encloses text) (by cases d <;> rfl)

theorem isInteger_bytesLiteral (bytes : List UInt8) :
    isInteger (d.dialect.bytesLiteral bytes) = false := by
  cases d with
  | postgres =>
      rw [bytesLiteral_postgres, String.append_assoc, String.append_assoc, String.empty_append]
      exact isInteger_wrapped rfl
  | ansi | sqlite | mysql => exact isInteger_wrapped rfl

theorem isInteger_dateLiteral (date : Calendar.Date) :
    isInteger (d.dialect.dateLiteral date) = false := by
  cases d with
  | sqlite => exact isInteger_quoteText (d := sqlite) _
  | ansi | postgres | mysql => exact isInteger_wrapped rfl

theorem isInteger_timeLiteral (time : Calendar.Clock) :
    isInteger (d.dialect.timeLiteral time) = false := by
  cases d with
  | sqlite => exact isInteger_quoteText (d := sqlite) _
  | ansi | postgres | mysql => exact isInteger_wrapped rfl

theorem isInteger_datetimeLiteral (moment : Calendar.Moment) :
    isInteger (d.dialect.datetimeLiteral moment) = false := by
  cases d with
  | sqlite => exact isInteger_quoteText (d := sqlite) _
  | ansi | postgres | mysql => exact isInteger_wrapped rfl

theorem isInteger_jsonLiteral (text : String) :
    isInteger (d.dialect.jsonLiteral text) = false := by
  cases d with
  | postgres =>
      change isInteger (enclose '\'' text ++ "::jsonb") = false
      exact isInteger_eq_false (c := ':') (by simp) rfl
  | ansi => exact isInteger_quoteText (d := ansi) text
  | sqlite => exact isInteger_quoteText (d := sqlite) text
  | mysql => exact isInteger_quoteText (d := mysql) text

theorem isInteger_arithmetic (op : Arithmetic) :
    isInteger (d.dialect.arithmetic l op r) = false := by
  cases d <;> exact isInteger_bracketed

theorem isInteger_concat : isInteger (d.dialect.concat l r) = false := by
  cases d with
  | mysql => exact isInteger_callText _ _
  | ansi | postgres | sqlite => exact isInteger_bracketed

theorem isInteger_trueDivide : isInteger (d.dialect.trueDivide l r) = false := by
  cases d <;> exact isInteger_bracketed

theorem isInteger_floorModulo : isInteger (d.dialect.floorModulo l r) = false := by
  cases d <;> exact isInteger_bracketed

theorem isInteger_dateArithmetic {l r : Kind × String} {op : Arithmetic}
    (written : d.dialect.dateArithmetic l op r = some sql) : isInteger sql = false := by
  have behind {front back : String} (mixed : front.toList.all inIntegers = false)
      (same : some (front ++ back) = some sql) : isInteger sql = false :=
    Option.some.inj same ▸ isInteger_append mixed
  have called {function : String} {arguments : List String}
      (same : some (callText function arguments) = some sql) : isInteger sql = false :=
    Option.some.inj same ▸ isInteger_callText function arguments
  cases d with
  | ansi => cases written
  | postgres =>
      change Dialect.postgresDates l op r = some sql at written
      unfold Dialect.postgresDates at written
      simp only [Text.bracketed, String.append_assoc] at written
      split at written <;> first | exact behind rfl written | cases written
  | sqlite =>
      change Dialect.sqliteDates l op r = some sql at written
      unfold Dialect.sqliteDates at written
      simp only [String.append_assoc] at written
      split at written <;> first | exact called written | exact behind rfl written | cases written
  | mysql =>
      change Dialect.mysqlDates l op r = some sql at written
      unfold Dialect.mysqlDates Dialect.addMicroseconds at written
      simp only [String.append_assoc] at written
      split at written <;> first | exact called written | exact behind rfl written | cases written

theorem isInteger_extract (part : DatePart) : isInteger (d.dialect.extract part sql) = false := by
  have field : isInteger ("EXTRACT(" ++ part.keyword ++ " FROM " ++ sql ++ ")") = false := by
    simp only [String.append_assoc]
    exact isInteger_append rfl
  have floored : isInteger (if part = .second then
      callText "FLOOR" ["EXTRACT(" ++ part.keyword ++ " FROM " ++ sql ++ ")"]
      else "EXTRACT(" ++ part.keyword ++ " FROM " ++ sql ++ ")") = false := by
    split
    · exact isInteger_callText _ _
    · exact field
  have cast (text : String) : isInteger ("CAST(" ++ text ++ " AS INTEGER)") = false :=
    isInteger_wrapped rfl
  cases d with
  | ansi | mysql => exact floored
  | postgres | sqlite => exact cast _

theorem isInteger_now : isInteger d.dialect.now = false := by
  cases d <;> rfl

theorem isInteger_today : isInteger d.dialect.today = false := by
  cases d <;> rfl

theorem isInteger_lower : isInteger (d.dialect.lower sql) = false := by
  cases d <;> exact isInteger_callText _ _

theorem isInteger_upper : isInteger (d.dialect.upper sql) = false := by
  cases d <;> exact isInteger_callText _ _

theorem isInteger_length : isInteger (d.dialect.length sql) = false := by
  cases d <;> exact isInteger_callText _ _

end BuiltinDialect

namespace Sql.Fragment

open BuiltinDialect

variable {d : BuiltinDialect} {l r : Fragment} {op : Arithmetic} {sql : String}

theorem isInteger_numericArithmetic? (written : numericArithmetic? d.dialect l op r = some sql) :
    isInteger sql = false := by
  unfold numericArithmetic? at written
  dsimp only at written
  split at written
  · split at written
    · exact isInteger_dateArithmetic written
    · exact Option.some.inj written ▸ isInteger_arithmetic op
  · split at written
    · cases written
    · repeat' split at written
      all_goals cases written
      · exact isInteger_trueDivide
      · exact isInteger_arithmetic .div
      · exact isInteger_floorModulo
      · exact isInteger_arithmetic op

theorem isInteger_secondsArithmetic? (written : secondsArithmetic? d.dialect l op r = some sql) :
    isInteger sql = false := by
  have plain {op : Arithmetic} {text : String}
      (written : some (d.dialect.arithmetic l.sql op text) = some sql) : isInteger sql = false :=
    Option.some.inj written ▸ isInteger_arithmetic op
  unfold secondsArithmetic? at written
  split at written
  · exact plain written
  · exact plain written
  · exact plain written
  · exact plain written
  · exact plain written
  · exact plain written
  · exact plain written
  · exact isInteger_dateArithmetic written
  · exact isInteger_dateArithmetic written
  · cases written

/-- The result of arithmetic in SQL is no integer literal. -/
theorem isInteger_arithmetic? (written : l.arithmetic? d.dialect op r = some sql) :
    isInteger sql = false := by
  have joined {accepted : Prop} [Decidable accepted] {text : String}
      (written : (if accepted then some (d.dialect.concat l.sql text) else none) = some sql) :
      isInteger sql = false := by
    split at written
    · exact Option.some.inj written ▸ isInteger_concat
    · cases written
  unfold arithmetic? at written
  split at written
  · exact isInteger_numericArithmetic? written
  · exact isInteger_numericArithmetic? written
  · exact isInteger_numericArithmetic? written
  · exact joined written
  · exact joined written
  · exact isInteger_dateArithmetic written
  · exact isInteger_dateArithmetic written
  · exact isInteger_dateArithmetic written
  · exact isInteger_secondsArithmetic? written
  · cases written

end Sql.Fragment

/-! ## Functions -/

/-- The SQL form of a function is a test or no integer literal. -/
def Function.WritesNoInteger (f : Function) : Prop :=
  ∀ (d : BuiltinDialect) (operands : List Fragment) (rendering : Rendering),
    f.render? d.dialect operands = some rendering →
      rendering.fragment.kind = .bool ∨ isInteger rendering.fragment.sql = false

namespace Function

open BuiltinDialect

theorem Writes.noInteger {sql : String} {kind : Kind} {rendering : Rendering}
    (writes : Writes sql kind rendering) (other : isInteger sql = false) :
    isInteger rendering.fragment.sql = false := by
  rwa [writes.sql]

theorem writesNoInteger_ofAffix (affix : Affix) (ignoreCase : Bool) :
    (ofAffix affix ignoreCase).WritesNoInteger := by
  intro d operands rendering rendered
  obtain ⟨text, piece, -, rendered⟩ := writes_ofAffix rendered
  obtain ⟨-, -, pattern, -, writes⟩ := writes_affix rendered
  exact .inl writes.kind

theorem writesNoInteger_ofCase {name : String} {sql : Dialect → String → String}
    {convert : String → String}
    (converts : ∀ (d : BuiltinDialect) (text : String), isInteger (sql d.dialect text) = false) :
    (ofCase name sql convert).WritesNoInteger := by
  intro d operands rendering rendered
  obtain ⟨f, -, -, writes⟩ := writes_ofCase rendered
  exact .inr (writes.noInteger (converts d f.sql))

theorem writesNoInteger_equalIgnoringCase : equalIgnoringCase.WritesNoInteger := by
  intro d operands rendering rendered
  obtain ⟨a, b, -, -, -, writes⟩ := writes_equalIgnoringCase rendered
  exact .inl writes.kind

theorem writesNoInteger_ofClock {sql : Dialect → String} {kind : Kind}
    (reads : ∀ d : BuiltinDialect, isInteger (sql d.dialect) = false) :
    (ofClock sql kind).WritesNoInteger := by
  intro d operands rendering rendered
  have writes : Writes (sql d.dialect) kind rendering := writes_clock rfl rendered
  exact .inr (writes.noInteger (reads d))

theorem writesNoInteger_count : count.WritesNoInteger := by
  intro d operands rendering rendered
  rcases writes_count rendered with ⟨-, writes⟩ | ⟨f, -, writes⟩
  · exact .inr (writes.noInteger rfl)
  · exact .inr (writes.noInteger (isInteger_callText "COUNT" [f.sql]))

theorem Aggregates.writesNoInteger {f : Function} {name : String}
    (aggregates : f.Aggregates name) : f.WritesNoInteger := by
  intro d operands rendering rendered
  obtain ⟨operand, kind, -, -, writes⟩ := aggregates.writes rendered
  exact .inr (writes.noInteger (isInteger_callText name [operand.sql]))

theorem isInteger_extract? {part : DatePart} {d : BuiltinDialect} {f : Fragment}
    {rendering : Rendering} (rendered : extract? part d.dialect f = some rendering) :
    isInteger rendering.fragment.sql = false :=
  (writes_extract? rendered).2.noInteger (isInteger_extract part)

theorem writesNoInteger_ofField (part : DatePart) : (ofField part).WritesNoInteger := by
  intro d operands rendering rendered
  obtain ⟨f, -, extracted⟩ := writes_ofField rendered
  exact .inr (isInteger_extract? extracted)

theorem writesNoInteger_length : length.WritesNoInteger := by
  intro d operands rendering rendered
  obtain ⟨f, -, -, writes⟩ := writes_length rendered
  exact .inr (writes.noInteger isInteger_length)

theorem writesNoInteger_absolute : absolute.WritesNoInteger := by
  intro d operands rendering rendered
  obtain ⟨f, -, -, writes⟩ := writes_absolute rendered
  exact .inr (writes.noInteger (isInteger_callText "ABS" [f.sql]))

end Function

namespace FunctionLibrary

open RowQuery.Function BuiltinDialect

theorem writesNoInteger_standardMethods : ∀ pair ∈ standardMethods, pair.2.WritesNoInteger := by
  have lower : (ofCase "lower" Dialect.lower Text.lower).WritesNoInteger :=
    writesNoInteger_ofCase fun _ _ => isInteger_lower
  have upper : (ofCase "upper" Dialect.upper Text.upper).WritesNoInteger :=
    writesNoInteger_ofCase fun _ _ => isInteger_upper
  exact forall_ofList (by simp [writesNoInteger_ofAffix, lower, upper])

theorem writesNoInteger_standardFunctions :
    ∀ pair ∈ standardFunctions, pair.2.WritesNoInteger := by
  have now : (ofClock Dialect.now .datetime).WritesNoInteger :=
    writesNoInteger_ofClock fun _ => isInteger_now
  have today : (ofClock Dialect.today .date).WritesNoInteger :=
    writesNoInteger_ofClock fun _ => isInteger_today
  exact forall_ofList (by
    simp [writesNoInteger_ofAffix, writesNoInteger_equalIgnoringCase, now, today,
      writesNoInteger_count, (aggregates_extremum _).writesNoInteger,
      aggregates_sum.writesNoInteger, aggregates_mean.writesNoInteger, writesNoInteger_ofField,
      writesNoInteger_length, writesNoInteger_absolute])

/-- The functions that a term can call. -/
theorem writesNoInteger_standard {t : Term} {f : Function}
    (called : t.function? standard = some f) : f.WritesNoInteger := by
  cases t with
  | call name operands =>
      exact forall_function? writesNoInteger_standardFunctions nofun name f called
  | method target name operands =>
      exact writesNoInteger_standardMethods _ (Keyed.mem_of_get? called)
  | _ => cases called

end FunctionLibrary

/-! ## Pieces -/

/-- The literal of the value is an integer, as an operand. -/
def Value.writesInteger (d : BuiltinDialect) : Value → Bool
  | .int _ => true
  | .bool _ => d = .sqlite
  | .decimal x => x.places = 0
  | .interval i => d ≠ .postgres && i.seconds.places = 0
  | _ => false

/-- The piece is an integer, as an operand, exactly if it has a value that is written so. -/
def Piece.IntegerIfKnown (d : BuiltinDialect) (c : CompileContext) (p : Piece) : Prop :=
  isInteger (c.operand p).sql = p.fragment.constant.any fun v => v.writesInteger d

namespace CompileContext

open BuiltinDialect

variable {d : BuiltinDialect} {c : CompileContext} {p l r : Piece}

theorem integerIfKnown_of_open (open_ : p.fragment.constant = none)
    (other : p.condition = true ∨ isInteger p.fragment.sql = false) : p.IntegerIfKnown d c := by
  rw [Piece.IntegerIfKnown, operand, open_, Option.any_none]
  dsimp only
  split
  · exact isInteger_bracketed
  · rename_i plain
    exact other.resolve_left plain

theorem integerIfKnown_of_tests (tests : c.Tests p) (same : c.dialect = d.dialect) :
    p.IntegerIfKnown d c := by
  cases tests with
  | @truth value compiled =>
      obtain ⟨type, rfl⟩ := truth_eq_ok compiled
      change isInteger (c.dialect.truthLiteral value) = _
      rw [same]
      cases d <;> cases value <;> rfl
  | test compiled =>
      obtain ⟨type, rfl⟩ := test_eq_ok compiled
      exact integerIfKnown_of_open rfl (.inl rfl)

/-! ### Literals -/

/-- Intervals have literals of their own on PostgreSQL only. -/
theorem family_interval {type : ColumnType}
    (resolved : d.dialect.types.resolve .interval {} = .ok type) :
    type.family = .interval ↔ d = postgres := by
  cases d with
  | postgres =>
      obtain rfl := Except.ok.inj resolved
      exact iff_of_true rfl rfl
  | _ =>
      obtain rfl := Except.ok.inj resolved
      exact iff_of_false nofun nofun

theorem isInteger_interval {type : ColumnType} {i : Calendar.Interval} {sql : String}
    (resolved : d.dialect.types.resolve .interval {} = .ok type)
    (written : (Codec.ofKind .interval type).encode d.dialect type (.interval i) = .ok sql) :
    isInteger sql = (Value.interval i).writesInteger d := by
  have native := family_interval resolved
  by_cases known : d = postgres
  · subst known
    rw [Codec.ofKind, if_pos (native.2 rfl)] at written
    obtain rfl := Except.ok.inj written
    exact isInteger_wrapped rfl
  · rw [Codec.ofKind, if_neg (mt native.1 known)] at written
    obtain rfl := Except.ok.inj written
    simp [isInteger_decimal, Value.writesInteger, known]

/-- The literals of truth values are tests, and are not looked at here. -/
theorem isInteger_literalText (same : c.dialect = d.dialect) {v : Value} {type : ColumnType}
    {sql : String} (notBool : v.kind ≠ .bool) (typed : literalType c.dialect.types v = .ok type)
    (written : c.literalText type v = .ok sql) : isInteger sql = v.writesInteger d := by
  unfold literalText at written
  rw [same] at typed written
  cases v with
  | bool b => exact absurd rfl notBool
  | null | list items =>
      obtain rfl := Except.ok.inj written
      rfl
  | int i =>
      rw [eq_of_encodeInt written]
      exact isInteger_intText i.toInt
  | decimal x =>
      rw [eq_of_encodeDecimal written]
      exact isInteger_decimal x
  | float x =>
      have encoded : (if x.isNaN || x.isInf then
        .error (.value ((Value.float x).repr ++ " has no portable SQL literal"))
          else .ok (Binary64.exactText x) : Outcome String) = .ok sql := written
      split at encoded
      · cases encoded
      · rename_i finite
        rw [Bool.or_eq_true, not_or, Bool.not_eq_true, Bool.not_eq_true] at finite
        obtain rfl := Except.ok.inj encoded
        exact isInteger_exactText finite.1 finite.2
  | text s =>
      obtain rfl := Except.ok.inj written
      exact isInteger_quoteText s
  | bytes bytes =>
      obtain rfl := Except.ok.inj written
      exact isInteger_bytesLiteral bytes
  | json document =>
      obtain rfl := Except.ok.inj written
      split
      · exact isInteger_jsonLiteral document.toText
      · exact isInteger_quoteText document.toText
  | date date =>
      obtain rfl := Except.ok.inj written
      exact isInteger_dateLiteral date
  | time clock =>
      obtain rfl := Except.ok.inj written
      exact isInteger_timeLiteral clock
  | datetime moment =>
      obtain rfl := Except.ok.inj written
      exact isInteger_datetimeLiteral moment
  | interval i => exact isInteger_interval typed written

theorem integerIfKnown_literal (same : c.dialect = d.dialect) {v : Value}
    (compiled : c.literal v = .ok p) : p.IntegerIfKnown d c := by
  by_cases isBool : v.kind = .bool
  · cases v with
    | bool b => exact integerIfKnown_of_tests (.truth compiled) same
    | _ => cases isBool
  · obtain ⟨sql, type, typed, written, rfl⟩ := typed_literal_eq_ok compiled isBool
    have text : (c.operand { fragment := .literal sql v type }).sql = sql := by
      cases v <;> first | rfl | exact absurd rfl isBool
    rw [Piece.IntegerIfKnown, text]
    exact isInteger_literalText same isBool typed written

/-! ### What is computed -/

theorem integerIfKnown_column (builtIn : c.BuiltIn d) {i : Nat} {key : String}
    (compiled : c.column i key = .ok p) : p.IntegerIfKnown d c := by
  obtain ⟨b, column, bound, found, rfl⟩ := exists_of_column compiled
  refine integerIfKnown_of_open rfl (.inr ?_)
  dsimp only
  split
  · exact isInteger_eq_false (c := '.') (by simp) rfl
  · rw [builtIn.columns b (List.mem_of_getElem? bound) column (Table.mem_of_lookup found),
      builtIn.dialect]
    exact isInteger_quoteName column.name

section

variable (same : c.dialect = d.dialect)

include same

theorem integerIfKnown_field {name : String} (compiled : c.field l name = .ok p) :
    p.IntegerIfKnown d c := by
  rcases field_eq_ok compiled with ⟨k, u, -, -, literal⟩ | ⟨part, rendering, rendered, rfl⟩
  · exact integerIfKnown_literal same literal
  · have open_ := (Function.writes_extract? rendered).2.unknown
    rw [same] at rendered
    exact integerIfKnown_of_open open_ (.inr (Function.isInteger_extract? rendered))

theorem integerIfKnown_call {f : Function} {name : String} {pieces : List Piece}
    (writes : f.WritesNoInteger) (sound : f.Sound) (compiled : c.call name f pieces = .ok p) :
    p.IntegerIfKnown d c := by
  rcases call_eq_ok compiled with ⟨ks, u, -, -, -, literal⟩ | written
  · exact integerIfKnown_literal same literal
  · obtain ⟨rendering, rendered, rfl⟩ := rendered_eq_ok written
    have open_ := sound.unknown _ _ _ rendered
    rw [same] at rendered
    exact integerIfKnown_of_open open_ ((writes d _ _ rendered).imp_left decide_eq_true)

theorem integerIfKnown_arithmetic {op : Arithmetic} (compiled : c.arithmetic l op r = .ok p) :
    p.IntegerIfKnown d c := by
  rcases arithmetic_eq_ok compiled with ⟨k, k', u, -, -, -, literal⟩ |
    ⟨-, kind, sql, type, -, written, rfl⟩
  · exact integerIfKnown_literal same literal
  · rw [same] at written
    exact integerIfKnown_of_open rfl (.inr (Fragment.isInteger_arithmetic? written))

theorem integerIfKnown_negative (compiled : c.negative l = .ok p) : p.IntegerIfKnown d c := by
  rcases negative_eq_ok compiled with ⟨k, u, -, -, literal⟩ | ⟨-, -, rfl⟩
  · exact integerIfKnown_literal same literal
  · refine integerIfKnown_of_open rfl (.inr ?_)
    rw [String.append_assoc]
    exact isInteger_append rfl

end

theorem integerIfKnown_named (known : p.IntegerIfKnown d c) (name : String) :
    ({ p with fragment := p.fragment.named name } : Piece).IntegerIfKnown d c := by
  have text : (c.operand { p with fragment := p.fragment.named name }).sql = (c.operand p).sql := by
    unfold operand
    dsimp only [Fragment.named]
    split
    · rfl
    · split <;> rfl
  rw [Piece.IntegerIfKnown, text]
  exact known

end CompileContext

/-- The SQL of a term is an integer exactly if its value is known and written so. -/
theorem Term.integerIfKnown {d : BuiltinDialect} {c : CompileContext} {params : List String}
    (builtIn : c.BuiltIn d) (standard : c.functions = .standard) {t : Term} {p : Piece}
    (compiled : t.compile c params = .ok p) : p.IntegerIfKnown d c := by
  have same := builtIn.dialect
  cases step_of_compile compiled with
  | literal written => exact CompileContext.integerIfKnown_literal same written
  | column _ found => exact CompileContext.integerIfKnown_column builtIn found
  | field _ ended => exact CompileContext.integerIfKnown_field same ended
  | call called _ ended =>
      have sound := builtIn.functions.sound
      refine CompileContext.integerIfKnown_call same ?_ ?_ ended
      · exact FunctionLibrary.writesNoInteger_standard (standard ▸ called)
      · cases t with
        | call name operands => exact sound.functions name _ called
        | method target name operands => exact sound.methods name _ called
        | _ => cases called
  | compare _ _ ended =>
      exact CompileContext.integerIfKnown_of_tests (CompileContext.tests_compare ended) same
  | member _ _ ended =>
      exact CompileContext.integerIfKnown_of_tests (CompileContext.tests_member ended) same
  | contains _ _ ended =>
      exact CompileContext.integerIfKnown_of_tests (CompileContext.tests_contains ended) same
  | arithmetic _ _ ended => exact CompileContext.integerIfKnown_arithmetic same ended
  | junction _ ended =>
      exact CompileContext.integerIfKnown_of_tests (CompileContext.tests_junction ended) same
  | negation _ _ ended =>
      exact CompileContext.integerIfKnown_of_tests (CompileContext.tests_negation ended) same
  | negative _ ended => exact CompileContext.integerIfKnown_negative same ended
  | named inner name =>
      -- A name is the one step that keeps the piece of another term.
      obtain ⟨u, among, compiledAs⟩ := inner
      exact CompileContext.integerIfKnown_named (integerIfKnown builtIn standard compiledAs) name
termination_by t
decreasing_by exact sizeOf_lt_of_mem_ingredients among

end RowQuery
