import RowQuery.Proofs.Calendar.Component
import RowQuery.Proofs.Calendar.Instant
import RowQuery.Proofs.Codec.RoundTrip

/-!
# Intervals come back from the database

An interval is written as its decimal seconds, with the unit behind them where there are intervals.
It comes back without what is below a microsecond, exactly if 64 bits count its microseconds.  A
longer interval is written in whole seconds, which are not read if 64 bits do not count their
microseconds either.
-/

namespace RowQuery

open RowQuery.Calendar RowQuery.Number

namespace Number.Decimal

/-- The nanoseconds of a number of seconds are a billion times the number. -/
theorem toRat_of_nanos? {d : Decimal} {nanos : Int} (found : d.nanos? = some nanos) :
    d.toRat = nanos / 10 ^ 9 := by
  unfold nanos? at found
  split at found
  · rename_i few
    obtain rfl := Option.some.inj found
    have split : (10 : ℚ) ^ 9 = 10 ^ (9 - d.places) * 10 ^ d.places := by
      rw [← pow_add, Nat.sub_add_cancel few]
    rw [toRat, split]
    push_cast
    rw [mul_comm (d.signed : ℚ), mul_div_mul_left _ _ (by positivity)]
  · cases found

/-- The text of a decimal is read as the same number. -/
theorem exists_read?_toRat (d : Decimal) :
    ∃ d', read? d.toText.toList = some d' ∧ d'.toRat = d.toRat := by
  obtain ⟨d', found, signed, places⟩ := d.exists_read?_signed
  exact ⟨d', found, by rw [toRat, signed, places, toRat]⟩

end Number.Decimal

namespace Calendar.Interval

/-- The interval without what is below a microsecond. -/
def wholeMicros (i : Interval) : Interval where
  nanos := i.nanos.tdiv 1000 * 1000
  inRange := by
    have inRange := i.inRange
    have short : (i.nanos.tdiv 1000).natAbs = i.nanos.natAbs / 1000 := Int.natAbs_tdiv _ _
    omega

variable {i j : Interval}

theorem dvd_written (i : Interval) : 1000 ∣ i.written := by
  unfold written
  split <;> omega

/-- The decimal seconds of an interval are read as what was written, if 64 bits count its
microseconds. -/
theorem ofSecondsDecimal?_written {d : Decimal} (value : d.toRat = i.seconds.toRat) :
    ofSecondsDecimal? d = some j ↔
      ∃ micros : Int64, micros.toInt * 1000 = i.written ∧ j.nanos = i.written := by
  obtain ⟨n, written⟩ := i.dvd_written
  have rounded : roundEven (d.toRat * 10 ^ 6) = n := by
    rw [value, Decimal.toRat_of_nanos? i.nanos?_seconds, written]
    push_cast
    rw [show (1000 * (n : ℚ)) / 10 ^ 9 * 10 ^ 6 = n by ring, roundEven_intCast]
  rw [ofSecondsDecimal?_eq_some_iff, rounded, written]
  constructor
  · rintro ⟨micros, rfl, nanos⟩
    exact ⟨micros, by omega, by omega⟩
  · rintro ⟨micros, same, nanos⟩
    exact ⟨micros, by omega, by omega⟩

/-- Written as a plain number, they are read as such. -/
theorem read_seconds : (Decimal.read? (Text.trimChars i.seconds.toText.toList)).bind
      ofSecondsDecimal? = some j ↔
    ∃ micros : Int64, micros.toInt * 1000 = i.written ∧ j.nanos = i.written := by
  obtain ⟨d, found, value⟩ := i.seconds.exists_read?_toRat
  rw [Text.trimChars_of_unblank i.seconds.unblank_toText, found, Option.bind_some]
  exact ofSecondsDecimal?_written value

def secondsWord : UnitWord :=
  ⟨.second, "seconds".toList, by decide⟩

/-- A number of seconds is read as that decimal, whether or not 64 bits count its microseconds. -/
theorem readInterval?_secondsWord {n : Numeral} (fits : n.Fits) (sign : Sign) :
    ∃ product : Decimal, product.toRat = sign.factor * n.value ∧
      readInterval? (String.ofList (sign.chars ++ n.chars ++ ' ' :: secondsWord.chars)) =
        ofSecondsDecimal? product := by
  have exact : (Component.amount sign n secondsWord).Exact := by
    change n.number * 1 < Decimal.limit
    rw [mul_one]
    exact fits.2
  obtain ⟨room, all⟩ := Decimal.heldPlaces_of_lt n.places exact
  obtain ⟨d, product, read, found, value⟩ := Component.exists_product sign fits
    (by rwa [all, Nat.sub_self])
  refine ⟨product, ?_, ?_⟩
  · rw [value, Component.heldLength_eq exact, Component.length]
    simp [secondsWord, TimeUnit.seconds]
  have nonempty : sign.chars ++ n.chars ≠ [] := by simp [n.chars_ne_nil]
  have trimmed : Text.trimChars (sign.chars ++ n.chars ++ ' ' :: secondsWord.chars) =
      sign.chars ++ n.chars ++ ' ' :: secondsWord.chars := by
    refine Text.trimChars_of_ends (fun c first => ?_) (fun c last => ?_)
    · rw [List.head?_append_of_ne_nil _ nonempty] at first
      exact Component.unblank_amount c (List.mem_of_mem_head? first)
    · obtain rfl : 's' = c := by simpa [secondsWord] using last
      rfl
  have parts : Decimal.read? (sign.chars ++ n.chars ++ ' ' :: secondsWord.chars) = none :=
    Decimal.read?_numeral_append fits sign _ (by decide)
  have words : Text.words (sign.chars ++ n.chars ++ ' ' :: secondsWord.chars) =
      [sign.chars ++ n.chars, secondsWord.chars] := by
    have amount := Text.words_eq_iff.mp (Text.words_of_unblank nonempty Component.unblank_amount)
    have unit : Text.Spaced [secondsWord.chars] secondsWord.chars :=
      Text.words_eq_iff.mp (by decide)
    have blank : ∀ c ∈ [' '], Text.isBlank c = true := List.forall_mem_singleton.mpr rfl
    have both := Text.words_eq_iff.mpr (amount.append (List.cons_ne_nil ' ' []) blank unit)
    rwa [List.append_assoc] at both
  have added (part : Interval) : (zero.add? part).bind (readParts? · []) = some part := by
    rw [add?_eq_some_iff.mpr (zero_add part.nanos).symm]
    simp only [Option.bind_some, readParts?]
  simp only [readInterval?, String.toList_ofList, trimmed, parts, words]
  rw [readParts?_amount zero Component.not_colon_of_amount, read,
    TimeUnit.readUnitSeconds?_of_spelled secondsWord.spelled]
  simp only [Option.bind_some, found, added, Option.bind_fun_some]

/-- With the unit behind them they are read as an amount of it. -/
theorem read_seconds_unit : readInterval? (i.seconds.toText ++ " seconds") = some j ↔
    ∃ micros : Int64, micros.toInt * 1000 = i.written ∧ j.nanos = i.written := by
  obtain ⟨n, text, number, places⟩ := i.seconds.exists_numeral
  have fits : n.Fits := by
    rw [Numeral.Fits, number, places]
    exact ⟨i.seconds.places_le, i.seconds.coefficient_lt⟩
  obtain ⟨product, value, read⟩ :=
    readInterval?_secondsWord fits (if i.seconds.negative then .minus else .none)
  have whole : i.seconds.toText ++ " seconds" = String.ofList
      ((if i.seconds.negative then Sign.minus else Sign.none).chars ++ n.chars ++
        ' ' :: secondsWord.chars) := by
    rw [← text, String.ofList_append, String.ofList_toList]
    rfl
  rw [whole, read]
  refine ofSecondsDecimal?_written (value.trans ?_)
  rw [Decimal.toRat_eq, Decimal.magnitude, Numeral.value, number, places]
  cases i.seconds.negative <;> simp [Sign.factor]

/-- What was written is the interval without what is below a microsecond, exactly if 64 bits count
its microseconds. -/
theorem written_wholeMicros_iff :
    (∃ micros : Int64, micros.toInt * 1000 = i.written ∧ i.wholeMicros.nanos = i.written) ↔
      i.micros?.isSome = true := by
  constructor
  · rintro ⟨micros, same, nanos⟩
    have counted : micros.toInt = i.nanos.tdiv 1000 := by
      have cut : i.nanos.tdiv 1000 * 1000 = i.written := nanos
      omega
    exact Option.isSome_iff_exists.mpr ⟨micros, word?_eq_some_iff.mpr counted⟩
  · intro counted
    obtain ⟨micros, found⟩ := Option.isSome_iff_exists.mp counted
    have same : micros.toInt = i.nanos.tdiv 1000 := word?_eq_some_iff.mp found
    have written : i.written = micros.toInt * 1000 := by rw [written, found]
    exact ⟨micros, written.symm, by rw [written, same]; rfl⟩

/-- Nothing that is read was written if 64 bits do not count the microseconds of its whole seconds
either. -/
theorem not_written_of_long (long : i.micros? = none)
    (longer : word? (i.wholeSeconds * 1000000) = none) (micros : Int64) :
    micros.toInt * 1000 ≠ i.written := by
  intro same
  rw [written, long] at same
  have counted : word? (i.wholeSeconds * 1000000) = some micros :=
    word?_eq_some_iff.mpr (by dsimp only at same; omega)
  rw [longer] at counted
  cases counted

end Calendar.Interval

namespace BuiltinDialect

variable {d : BuiltinDialect}

/-- The cell that a database answers holds what was written. -/
theorem exists_decode?_interval {codec : Codec} (ofIntervals : codec.kind = .interval)
    {type : ColumnType} {i : Interval} {literal : String}
    (encoded : codec.encode d.dialect type (.interval i) = .ok literal) :
    ∃ cell read, d.echo literal = some cell ∧ codec.decode? cell = read.map Value.interval ∧
      ∀ j : Interval, read = some j ↔
        ∃ micros : Int64, micros.toInt * 1000 = i.written ∧ j.nanos = i.written := by
  cases codec with
  | intervalSeconds =>
      obtain rfl := Except.ok.inj encoded
      exact ⟨_, _, echo_number fun c member => Decimal.of_mem_toText member, rfl,
        fun j => Interval.read_seconds⟩
  | interval =>
      cases d with
      | postgres =>
          obtain rfl := Except.ok.inj encoded
          have bare : IsBare (i.seconds.toText ++ " seconds") :=
            (IsBare.decimal i.seconds).append (by simp [IsBare])
          have answered := echo_of_bare (d := .postgres) bare "INTERVAL "
            (by simp [literalKeywords])
          have whole : "INTERVAL '" ++ i.seconds.toText ++ " seconds'" =
              "INTERVAL " ++ "'" ++ (i.seconds.toText ++ " seconds") ++ "'" := by
            simp [String.append_assoc]
          exact ⟨.text (i.seconds.toText ++ " seconds"), _, whole ▸ answered, rfl,
            fun j => Interval.read_seconds_unit⟩
      | ansi | sqlite | mysql => cases encoded
  | _ => cases ofIntervals

variable (d)

/-- An interval comes back from the database without what is below a microsecond, exactly if 64 bits
count its microseconds; a longer one cannot be decoded if they do not count those of its whole
seconds either. -/
theorem interval_comes_back_iff {codec : Codec} (ofIntervals : codec.kind = .interval)
    {type : ColumnType} {i : Interval} {literal : String}
    (encoded : codec.encode d.dialect type (.interval i) = .ok literal) :
    ∃ cell, d.echo literal = some cell ∧
      (codec.decode type cell = .ok (.interval i.wholeMicros) ↔ i.micros?.isSome = true) ∧
      (i.micros? = none → word? (i.wholeSeconds * 1000000) = none →
        codec.decode type cell = .error (Codec.decodeFault cell type .interval)) := by
  obtain ⟨cell, read, answered, decoded, written⟩ := exists_decode?_interval ofIntervals encoded
  refine ⟨cell, answered, ?_, fun long longer => ?_⟩
  · rw [← Interval.written_wholeMicros_iff, ← written, Codec.decode, decoded]
    cases read <;> simp [Codec.orFault]
  · have none : read = none := by
      rw [Option.eq_none_iff_forall_ne_some]
      intro j found
      obtain ⟨micros, same, -⟩ := (written j).mp found
      exact Interval.not_written_of_long long longer micros same
    rw [Codec.decode, decoded, none, ofIntervals]
    rfl

/-- A quarter of an hour and some nanoseconds come back without these; three hundred thousand years
do not come back. -/
theorem quarter_comes_back :
    let quarter : Interval := ⟨900000001234, by decide⟩
    let ages : Interval := ⟨10000000000000000000000, by decide⟩
    let type := ColumnType.decimalOf "NUMERIC" 20 6
    (Codec.intervalSeconds.encode Dialect.ansi type (.interval quarter) = .ok "900.000001" ∧
      ∃ cell, ansi.echo "900.000001" = some cell ∧
        Codec.intervalSeconds.decode type cell =
          .ok (.interval ⟨900000001000, by decide⟩)) ∧
    (Codec.interval.encode Dialect.postgres type (.interval ages) =
        .ok "INTERVAL '10000000000000 seconds'" ∧
      ∃ cell, postgres.echo "INTERVAL '10000000000000 seconds'" = some cell ∧
        Codec.interval.decode type cell = .error (Codec.decodeFault cell type .interval)) := by
  intro quarter ages type
  have short : Codec.intervalSeconds.encode Dialect.ansi type (.interval quarter) =
      .ok "900.000001" := by
    have text : quarter.seconds.toText = "900.000001" := by decide +kernel
    exact congrArg Except.ok text
  have long : Codec.interval.encode Dialect.postgres type (.interval ages) =
      .ok "INTERVAL '10000000000000 seconds'" := by
    have text : ages.seconds.toText = "10000000000000" := by decide +kernel
    have whole : "INTERVAL '" ++ ages.seconds.toText ++ " seconds'" =
        "INTERVAL '10000000000000 seconds'" := by
      rw [text]
      rfl
    exact congrArg Except.ok whole
  refine ⟨⟨short, ?_⟩, long, ?_⟩
  · obtain ⟨cell, answered, back, -⟩ := interval_comes_back_iff ansi rfl short
    exact ⟨cell, answered, back.mpr (by decide)⟩
  · obtain ⟨cell, answered, -, lost⟩ := interval_comes_back_iff postgres rfl long
    exact ⟨cell, answered, lost (by decide) (by decide)⟩

end BuiltinDialect

end RowQuery
