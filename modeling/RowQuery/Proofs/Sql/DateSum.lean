import RowQuery.Proofs.Sql.DateOperand

/-!
# Sums of dates and intervals

The SQL of a date plus or minus an interval, in the spelling of each database, is read as the date
on which the exact instant lies.  Outside of the database the interval is cut off to whole days.
The two agree for moves forward and for whole days; all other moves back end one day later outside
of the database.
-/

namespace RowQuery

open Calendar Sql

namespace Sql

namespace Quantity

/-- The instant that a sum or a difference comes to. -/
def combine? : Quantity → Arithmetic → Quantity → Option Int
  | day date, .add, span nanos | span nanos, .add, day date => some (date.midnight + nanos)
  | day date, .sub, span nanos => some (date.midnight - nanos)
  | _, _, _ => none

end Quantity

/-- Read a plus or a minus sign between blanks. -/
def readSign (text : List Char) : Option (Arithmetic × List Char) :=
  match expect " + " text with
  | some rest => some (.add, rest)
  | none => (expect " - " text).map (.sub, ·)

/-- Read a minus sign, if there is one. -/
def readDirection (text : List Char) : Arithmetic × List Char :=
  match expect "-" text with
  | some rest => (.sub, rest)
  | none => (.add, text)

/-- The ways to move a date by an interval. -/
inductive DateSum where
  /-- A date plus an interval. -/
  | plus
  /-- An interval plus a date. -/
  | plusDate
  /-- A date minus an interval. -/
  | minus

namespace DateSum

variable {α : Type}

def op : DateSum → Arithmetic
  | plus | plusDate => .add
  | minus => .sub

def left (sum : DateSum) (day span : α) : α :=
  match sum with
  | plus | minus => day
  | plusDate => span

def right (sum : DateSum) (day span : α) : α :=
  match sum with
  | plus | minus => span
  | plusDate => day

/-- How far the date is moved by an interval. -/
def shift (sum : DateSum) (nanos : Int) : Int :=
  match sum with
  | plus | plusDate => nanos
  | minus => -nanos

theorem combine? (sum : DateSum) (start : Date) (nanos : Int) :
    (sum.left (Quantity.day start) (.span nanos)).combine? sum.op
        (sum.right (Quantity.day start) (.span nanos)) =
      some (start.midnight + sum.shift nanos) := by
  cases sum <;> rfl

end DateSum

end Sql

namespace BuiltinDialect

/-- Read a sum of a date and an interval as an instant. -/
def readInstant (operand : ReaderOf Quantity) : BuiltinDialect → ReaderOf Int
  | ansi, _ => none
  | sqlite, text => do
      let (date, text) ← readSigned operand (← expect "date(" text)
      let (span, text) ← readSigned operand (← expect ", printf('%+.6f seconds', " text)
      let text ← expect "))" text
      return (← date.combine? .add span, text)
  | mysql, text => do
      let text ← expect "DATE(TIMESTAMPADD(MICROSECOND, " text
      let (op, text) := readDirection text
      let (span, text) ← readSigned operand (← expect "ROUND(" text)
      let (date, text) ← readSigned operand (← expect " * 1000000), " text)
      let text ← expect "))" text
      return (← date.combine? op span, text)
  | postgres, text => do
      let (left, text) ← readSigned operand (← expect "CAST((" text)
      let (op, text) ← readSign text
      let (right, text) ← readSigned operand text
      let text ← expect ") AS DATE)" text
      return (← left.combine? op right, text)

/-- Read a sum of a date and an interval as the date on which the instant lies. -/
def readDateSum (d : BuiltinDialect) (operand : ReaderOf Quantity) : ReaderOf Date := fun text => do
  let (instant, rest) ← d.readInstant operand text
  return (← Date.ofInstant? instant, rest)

section Reading

variable {operand : ReaderOf Quantity} {l r seconds : String} {start : Date} {nanos : Int}

/-- The sum and the difference on SQLite, where the sign is part of the second operand. -/
theorem reads_sqlite {sign : String} (day : Scans (readSigned operand) l (some (.day start)))
    (span : Scans (readSigned operand) (sign ++ seconds) (some (.span nanos))) :
    Scans (sqlite.readDateSum operand) (callText "date" [l, Dialect.secondsModifier sign seconds])
      (Date.ofInstant? (start.midnight + nanos)) := by
  intro rest separated
  have second := span _ (separated_behind "))" rfl (.inr (.inl rfl)) rest)
  have first := day _ (separated_behind ", printf('%+.6f seconds', " rfl (.inr (.inr rfl))
    ((sign ++ seconds).toList ++ ("))".toList ++ rest)))
  have written : (callText "date" [l, Dialect.secondsModifier sign seconds]).toList ++ rest =
      "date(".toList ++ (l.toList ++ (", printf('%+.6f seconds', ".toList ++
        ((sign ++ seconds).toList ++ ("))".toList ++ rest)))) := by
    unfold Dialect.secondsModifier
    simp [callText, Text.join]
  rw [written, readDateSum, readInstant]
  simp only [Option.bind_eq_bind, expect_append, Option.bind_some, first, second, Option.map_some,
    Quantity.combine?, Option.pure_def]
  cases Date.ofInstant? (start.midnight + nanos) <;> rfl

/-- The sum and the difference on MySQL, where the date is always the last operand. -/
theorem reads_mysql (sign : String) (op : Arithmetic)
    (direction : ∀ text, readDirection (sign.toList ++ ("ROUND(".toList ++ text)) =
      (op, "ROUND(".toList ++ text)) {instant : Int}
    (combined : (Quantity.day start).combine? op (.span nanos) = some instant)
    (day : Scans (readSigned operand) l (some (.day start)))
    (span : Scans (readSigned operand) seconds (some (.span nanos))) :
    Scans (mysql.readDateSum operand) (callText "DATE" [Dialect.addMicroseconds sign seconds l])
      (Date.ofInstant? instant) := by
  intro rest separated
  have second := day _ (separated_behind "))" rfl (.inr (.inl rfl)) rest)
  have first := span _ (separated_behind " * 1000000), " rfl (.inl rfl)
    (l.toList ++ ("))".toList ++ rest)))
  have written : (callText "DATE" [Dialect.addMicroseconds sign seconds l]).toList ++ rest =
      "DATE(TIMESTAMPADD(MICROSECOND, ".toList ++ (sign.toList ++ ("ROUND(".toList ++
        (seconds.toList ++ (" * 1000000), ".toList ++ (l.toList ++ ("))".toList ++ rest)))))) := by
    simp [callText, Text.join, Dialect.addMicroseconds]
  rw [written, readDateSum, readInstant]
  simp only [Option.bind_eq_bind, expect_append, direction, Option.bind_some, first, second,
    Option.map_some, combined, Option.pure_def]
  cases Date.ofInstant? instant <;> rfl

/-- The sum and the difference on PostgreSQL, with the operands in their order. -/
theorem reads_postgres {a b : Quantity} {op : Arithmetic} (sign : op = .add ∨ op = .sub)
    {instant : Int} (combined : a.combine? op b = some instant)
    (left : Scans (readSigned operand) l (some a)) (right : Scans (readSigned operand) r (some b)) :
    Scans (postgres.readDateSum operand)
      ("CAST(" ++ Text.bracketed (spaced [l, op.symbol, r]) ++ " AS DATE)")
      (Date.ofInstant? instant) := by
  intro rest separated
  have second := right _ (separated_behind ") AS DATE)" rfl (.inr (.inl rfl)) rest)
  have first := left _ (separated_behind (" " ++ op.symbol ++ " ") (c := ' ') (by simp)
    (.inl rfl) (r.toList ++ (") AS DATE)".toList ++ rest)))
  have written : ("CAST(" ++ Text.bracketed (spaced [l, op.symbol, r]) ++ " AS DATE)").toList ++
      rest = "CAST((".toList ++ (l.toList ++ ((" " ++ op.symbol ++ " ").toList ++
        (r.toList ++ (") AS DATE)".toList ++ rest)))) := by
    simp [Text.join, Text.bracketed, spaced]
  have signed (text : List Char) :
      readSign ((" " ++ op.symbol ++ " ").toList ++ text) = some (op, text) := by
    rcases sign with rfl | rfl <;> rfl
  rw [written, readDateSum, readInstant]
  simp only [Option.bind_eq_bind, expect_append, signed, Option.bind_some, first, second,
    Option.map_some, combined, Option.pure_def]
  cases Date.ofInstant? instant <;> rfl

/-- What is written for a sum is read as the date on which the instant lies. -/
theorem reads_dateArithmetic {d : BuiltinDialect} (dates : d ≠ ansi) (sum : DateSum)
    (day : Scans (readSigned operand) l (some (.day start)))
    (span : Scans (readSigned operand) seconds (some (.span nanos)))
    (uncommented : d = sqlite → sum = .minus → seconds.toList.head? ≠ some '-') :
    ∃ sql, d.dialect.dateArithmetic (sum.left (.date, l) (.interval, seconds)) sum.op
        (sum.right (.date, l) (.interval, seconds)) = some sql ∧
      Scans (d.readDateSum operand) sql (Date.ofInstant? (start.midnight + sum.shift nanos)) := by
  have combined := sum.combine? start nanos
  cases d with
  | ansi => exact absurd rfl dates
  | postgres =>
      cases sum with
      | plus => exact ⟨_, rfl, reads_postgres (.inl rfl) combined day span⟩
      | plusDate => exact ⟨_, rfl, reads_postgres (.inl rfl) combined span day⟩
      | minus => exact ⟨_, rfl, reads_postgres (.inr rfl) combined day span⟩
  | sqlite =>
      have forward := span
      rw [← String.empty_append (s := seconds)] at forward
      cases sum with
      | plus | plusDate => exact ⟨_, rfl, reads_sqlite day forward⟩
      | minus => exact ⟨_, rfl, reads_sqlite day (reads_opposite (uncommented rfl rfl) span)⟩
  | mysql =>
      cases sum with
      | plus | plusDate =>
          exact ⟨_, rfl, reads_mysql "" .add (fun _ => rfl) combined day span⟩
      | minus => exact ⟨_, rfl, reads_mysql "-" .sub (fun _ => rfl) combined day span⟩

end Reading

end BuiltinDialect

namespace CompileContext

variable {c : CompileContext} {day span : Piece} {sum : DateSum}

/-- The piece of an operation on operands that are not both known, of the kind of one of them. -/
theorem arithmetic_of_open {l r : Piece} {op : Arithmetic} {kind : Kind} {sql : String}
    (opened : l.fragment.constant = none ∨ r.fragment.constant = none)
    (listed : op.resultKind l.fragment.kind r.fragment.kind = some kind)
    (rendered : (c.operand l).arithmetic? c.dialect op (c.operand r) = some sql)
    (same : kind = l.fragment.kind ∨ kind = r.fragment.kind) :
    ∃ piece, c.arithmetic l op r = .ok piece ∧ piece.exact = true ∧ piece.fragment.sql = sql := by
  unfold arithmetic
  split
  · rename_i known known'
    rw [known, known'] at opened
    simp at opened
  · simp only [listed, rendered, Walk.ofOption, operand_kind, bind, Except.bind]
    by_cases first : kind = l.fragment.kind
    · simp only [if_pos first]
      exact ⟨_, rfl, rfl, rfl⟩
    · simp only [if_neg first, if_pos (same.resolve_left first)]
      exact ⟨_, rfl, rfl, rfl⟩

theorem arithmetic_dateSum {sql : String}
    (opened : day.fragment.constant = none ∨ span.fragment.constant = none)
    (dayKind : day.fragment.kind = .date) (spanKind : span.fragment.kind = .interval)
    (written : c.dialect.dateArithmetic (sum.left (.date, (c.operand day).sql)
      (.interval, (c.operand span).sql)) sum.op (sum.right (.date, (c.operand day).sql)
      (.interval, (c.operand span).sql)) = some sql) :
    ∃ piece, c.arithmetic (sum.left day span) sum.op (sum.right day span) = .ok piece ∧
      piece.exact = true ∧ piece.fragment.sql = sql := by
  have listed : sum.op.resultKind (sum.left day span).fragment.kind
      (sum.right day span).fragment.kind = some .date := by
    cases sum <;>
      simp [DateSum.left, DateSum.right, DateSum.op, dayKind, spanKind, Arithmetic.resultKind]
  have front (op : Arithmetic) : (c.operand day).arithmetic? c.dialect op (c.operand span) =
      c.dialect.dateArithmetic (.date, (c.operand day).sql) op
        (.interval, (c.operand span).sql) := by
    simp [Fragment.arithmetic?, Fragment.codec, Codec.ofKind, dayKind, spanKind, Fragment.operand]
  cases sum with
  | plus =>
      exact arithmetic_of_open opened listed ((front .add).trans written)
        (.inl dayKind.symm)
  | minus =>
      exact arithmetic_of_open opened listed ((front .sub).trans written)
        (.inl dayKind.symm)
  | plusDate =>
      -- An interval that is stored as seconds has arithmetic of its own, which comes to the same.
      refine arithmetic_of_open opened.symm listed ?_ (.inr dayKind.symm)
      rw [← written]
      by_cases native : (c.operand span).type.family = .interval <;>
        simp [DateSum.left, DateSum.right, DateSum.op, Fragment.arithmetic?, Fragment.codec,
          Codec.ofKind, native, Fragment.secondsArithmetic?, Fragment.operand, dayKind, spanKind]

end CompileContext

namespace Term

/-- A date and an interval that are added or subtracted. -/
def dateSum (sum : DateSum) (date span : Term) : Term :=
  arithmetic (sum.left date span) sum.op (sum.right date span)

variable {sum : DateSum} {date span : Term} {scope : Scope} {start : Date} {i : Interval}

/-- Outside of the database the interval is cut off to whole days. -/
theorem eval_dateSum (dateEnded : date.eval scope = .ok (.date start))
    (spanEnded : span.eval scope = .ok (.interval i)) :
    (dateSum sum date span).eval scope =
      Value.orFault (Value.outOfRange sum.op) .date
        (start.addDays? ((sum.shift i.nanos).tdiv nanosPerDay)) := by
  have known (t : Term) (date : Date) : t.isUnknown (.date date) = false := rfl
  have known' (t : Term) (i : Interval) : t.isUnknown (.interval i) = false := rfl
  cases sum with
  | plus | plusDate =>
      simp only [dateSum, DateSum.left, DateSum.right, eval, dateEnded, spanEnded, bind,
        Except.bind, known, known', Bool.false_eq_true, if_false]
      rfl
  | minus =>
      simp only [dateSum, DateSum.left, DateSum.right, eval, dateEnded, spanEnded, bind,
        Except.bind, known, known', Bool.false_eq_true, if_false, DateSum.shift, Int.neg_tdiv]
      rfl

theorem compile_dateSum {c : CompileContext} {params : List String} {day length : Piece}
    (dayCompiled : date.compile c params = .ok day) (dayExact : day.exact = true)
    (lengthCompiled : span.compile c params = .ok length) (lengthExact : length.exact = true) :
    (dateSum sum date span).compile c params =
      c.arithmetic (sum.left day length) sum.op (sum.right day length) := by
  have dayFound := compile_exactly_eq_ok_iff.2 ⟨dayCompiled, dayExact⟩
  have lengthFound := compile_exactly_eq_ok_iff.2 ⟨lengthCompiled, lengthExact⟩
  cases sum <;>
  · simp only [dateSum, DateSum.left, DateSum.right, compile, dayFound, lengthFound]
    rfl

end Term

namespace BuiltinDialect

variable {d : BuiltinDialect}

/-- A date plus or minus an interval, as it is written and as it is computed outside of the
database.  What is written is read as the date of the instant, up to what is below a microsecond;
the other date is the same for moves forward and for whole days, and is one day later otherwise. -/
theorem date_sums_agree_iff (dates : d ≠ ansi) {c : CompileContext}
    (dialect : c.dialect = d.dialect) (sum : DateSum) {params : List String} {date span : Term}
    {day length : Piece} (dayCompiled : date.compile c params = .ok day)
    (lengthCompiled : span.compile c params = .ok length)
    (opened : day.fragment.constant = none ∨ length.fragment.constant = none)
    {operand : ReaderOf Quantity} {start : Date} {i : Interval}
    (dayShown : c.Shows operand day (.day start))
    (lengthShown : c.Shows operand length (.span i.written))
    (uncommented : d = sqlite → sum = .minus → (c.operand length).sql.toList.head? ≠ some '-')
    {scope : Scope} (dateEnded : date.eval scope = .ok (.date start))
    (spanEnded : span.eval scope = .ok (.interval i)) :
    ∃ piece, (Term.dateSum sum date span).compile c params = .ok piece ∧ piece.exact = true ∧
      Scans (d.readDateSum operand) piece.fragment.sql
        (Date.ofInstant? (start.midnight + sum.shift i.written)) ∧
      (∀ micros : Int64, i.nanos = micros.toInt * 1000 → i.written = i.nanos) ∧
      ∀ v, (Term.dateSum sum date span).eval scope = .ok v → ∃ host, v = .date host ∧
        (Date.ofInstant? (start.midnight + sum.shift i.written) = some host ↔
          RoundsAlike (sum.shift i.written)) ∧
        (Date.ofInstant? (start.midnight + sum.shift i.nanos) = some host ↔
          RoundsAlike (sum.shift i.nanos)) ∧
        (¬RoundsAlike (sum.shift i.nanos) →
          host.dayNumber = (start.midnight + sum.shift i.nanos) / nanosPerDay + 1) := by
  obtain ⟨sql, written, read⟩ :=
    reads_dateArithmetic dates sum dayShown.reads lengthShown.reads uncommented
  rw [← dialect] at written
  obtain ⟨piece, compiled, exactness, rfl⟩ :=
    CompileContext.arithmetic_dateSum opened dayShown.kind lengthShown.kind written
  refine ⟨piece, ?_, exactness, read, fun _ => i.written_of_micros, fun v ended => ?_⟩
  · rw [Term.compile_dateSum dayCompiled dayShown.exact lengthCompiled lengthShown.exact, compiled]
  rw [Term.eval_dateSum dateEnded spanEnded] at ended
  cases found : start.addDays? ((sum.shift i.nanos).tdiv nanosPerDay) with
  | none => rw [found] at ended; cases ended
  | some host =>
      rw [found] at ended
      have cut : (sum.shift i.written).tdiv nanosPerDay =
          (sum.shift i.nanos).tdiv nanosPerDay := by
        have same := i.tdiv_written
        unfold Interval.wholeDays at same
        cases sum <;> simp only [DateSum.shift, Int.neg_tdiv, same] <;> rfl
      have exact' := Date.ofInstant?_eq_some_iff found
      rw [← cut] at found
      exact ⟨host, (Except.ok.inj ended).symm, (Date.ofInstant?_eq_some_iff found).1, exact'⟩

section Ledger

/-- A table with a date. -/
def ledger : Table where
  name := "ledger"
  quotedName := sqlite.dialect.quoteName "ledger"
  columns := [{
    key := "posted"
    name := "posted"
    quotedName := sqlite.dialect.quoteName "posted"
    kind := .date
    type := .plainOf "DATE" .date }]

def firstOfMarch : Date := ⟨2024, 3, 1, by decide⟩

def leapDay : Date := ⟨2024, 2, 29, by decide⟩

def hour : Interval := ⟨3600000000000, by decide⟩

def ledgerContext : CompileContext where
  dialect := sqlite.dialect
  functions := {}
  bindings := [.ofTable ledger]

/-- One hour before the beginning of a day is a time of the day before. -/
theorem hour_before_march :
    ∃ piece, (Term.dateSum .minus (.field (.param 0) "posted") (.constant (.interval hour))).compile
        ledgerContext ["t"] = .ok piece ∧ piece.exact = true ∧
      Scans (sqlite.readDateSum (sqlite.readQuantity fun _ => some (.day firstOfMarch)))
        piece.fragment.sql (some leapDay) ∧
      (Term.dateSum .minus (.field (.param 0) "posted") (.constant (.interval hour))).eval
        { rows := [[("posted", .date firstOfMarch)]] } = .ok (.date firstOfMarch) ∧
      ¬RoundsAlike (DateSum.minus.shift hour.nanos) := by
  let row : List Char → Option Quantity := fun _ => some (.day firstOfMarch)
  obtain ⟨day, dayCompiled, opened, -, dayShown⟩ :=
    CompileContext.shows_column (c := ledgerContext) (d := sqlite) row rfl
      (rfl : ledger.lookup "posted" = _) rfl rfl
      (rfl : row "posted".toList = some (.day firstOfMarch))
  obtain ⟨length, lengthCompiled, -, written, lengthShown⟩ :=
    CompileContext.shows_interval (c := ledgerContext) (d := sqlite) row nofun rfl hour
  have dayFound : (Term.field (.param 0) "posted").compile ledgerContext ["t"] = .ok day :=
    dayCompiled
  have lengthFound : (Term.constant (.interval hour)).compile ledgerContext ["t"] = .ok length :=
    lengthCompiled
  have posted : (Term.field (.param 0) "posted").eval
      { rows := [[("posted", .date firstOfMarch)]] } = .ok (.date firstOfMarch) := rfl
  have unsigned : (sqlite.spanText hour).toList.head? ≠ some '-' := by decide +kernel
  obtain ⟨piece, compiled, exactness, read, -, agree⟩ := date_sums_agree_iff (d := sqlite)
    nofun rfl .minus dayFound lengthFound (.inl opened) dayShown lengthShown
    (fun _ _ => written ▸ unsigned) posted rfl
  have before : Date.ofInstant? (firstOfMarch.midnight + DateSum.minus.shift hour.written) =
      some leapDay := by
    decide +kernel
  have unmoved : firstOfMarch.addDays? ((DateSum.minus.shift hour.nanos).tdiv nanosPerDay) =
      some firstOfMarch := by
    decide +kernel
  refine ⟨piece, compiled, exactness, before ▸ read, ?_, by decide⟩
  rw [Term.eval_dateSum rfl rfl, unmoved]
  rfl

end Ledger

end BuiltinDialect

end RowQuery
