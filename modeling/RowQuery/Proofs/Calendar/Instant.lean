import Mathlib.Algebra.Group.Nat.Defs
import Mathlib.Algebra.Ring.Int.Defs
import RowQuery.Calendar.Moment
import RowQuery.Calendar.Seconds
import RowQuery.Proofs.Number.Reading

/-!
# Dates of instants

The date on which an instant lies, where instants are nanoseconds from the first of March of year
zero.  A date plus an interval is the date of the instant so much later than the beginning of the
day, if it is rounded down to the beginning of a day.  Whole days that are cut off toward zero
round negative intervals up instead.
-/

namespace RowQuery

namespace Calendar

/-- The nanoseconds of a day. -/
def nanosPerDay : Int := 86400000000000

namespace Date

/-- The beginning of the day as an instant. -/
def midnight (d : Date) : Int :=
  d.dayNumber * nanosPerDay

/-- The date on which an instant lies. -/
def ofInstant? (instant : Int) : Option Date :=
  ofDayNumber? (instant / nanosPerDay)

theorem ofInstant?_midnight_add (d : Date) (nanos : Int) :
    ofInstant? (d.midnight + nanos) = d.addDays? (nanos / nanosPerDay) := by
  have whole : (d.midnight + nanos) / nanosPerDay = d.dayNumber + nanos / nanosPerDay := by
    unfold midnight nanosPerDay
    omega
  rw [ofInstant?, whole, addDays?]

theorem make?_eq_some {year : Int} {month day : Nat} {d : Date}
    (made : make? year month day = some d) : d.year = year ∧ d.month = month ∧ d.day = day ∧
      1 ≤ month ∧ 1 ≤ day := by
  unfold make? at made
  split at made
  · rename_i valid
    obtain rfl := Option.some.inj made
    exact ⟨rfl, rfl, rfl, valid.2.2.1, valid.2.2.2.2.1⟩
  · cases made

/-- The year of an era of 400 years is in range, and begins on or before its days. -/
theorem yearOfEra_bounds {dayOfEra yearOfEra : Int} (inEra : 0 ≤ dayOfEra ∧ dayOfEra < 146097)
    (year : yearOfEra =
      (dayOfEra - dayOfEra / 1460 + dayOfEra / 36524 - dayOfEra / 146096) / 365) :
    0 ≤ yearOfEra ∧ yearOfEra < 400 ∧
      365 * yearOfEra + yearOfEra / 4 - yearOfEra / 100 ≤ dayOfEra := by
  have centuries : dayOfEra / 36524 = 0 ∨ dayOfEra / 36524 = 1 ∨ dayOfEra / 36524 = 2 ∨
      dayOfEra / 36524 = 3 ∨ dayOfEra / 36524 = 4 := by omega
  have century : yearOfEra / 100 = dayOfEra / 36524 - dayOfEra / 146096 := by
    rcases centuries with first | first | first | first | first <;> omega
  omega

/-- The date of a day number has that number. -/
theorem dayNumber_of_ofDayNumber? {number : Int} {d : Date} (found : ofDayNumber? number = some d) :
    d.dayNumber = number := by
  unfold ofDayNumber? at found
  extract_lets era dayOfEra yearOfEra dayOfYear month day year at found
  have inEra : 0 ≤ dayOfEra ∧ dayOfEra < 146097 := by omega
  have bounds := yearOfEra_bounds inEra (Eq.refl yearOfEra)
  have months : 0 ≤ month := by omega
  have leaps : year / 4 = yearOfEra / 4 + 100 * era ∧
      year / 100 = yearOfEra / 100 + 4 * era ∧ year / 400 = era := by omega
  have days : (day.toNat : Int) = day := by omega
  have number_eq : 365 * year + year / 4 - year / 100 + year / 400 + (153 * month + 2) / 5 + day -
      1 = number := by omega
  -- Years are counted from March, so that January and February belong to the year before.
  split at found
  · obtain ⟨sameYear, sameMonth, sameDay, -, -⟩ := make?_eq_some found
    have shifted : ((month + 3).toNat : Int) - 3 = month := by omega
    rw [dayNumber, sameYear, sameMonth, sameDay, if_neg (by omega), if_neg (by omega)]
    simpa only [shifted, days] using number_eq
  · obtain ⟨sameYear, sameMonth, sameDay, -, -⟩ := make?_eq_some found
    have shifted : ((month - 9).toNat : Int) + 9 = month := by omega
    rw [dayNumber, sameYear, sameMonth, sameDay, if_pos (by omega), if_pos (by omega)]
    simpa only [Int.add_sub_cancel, shifted, days] using number_eq

theorem addDays?_inj {d sum : Date} {days other : Int} (found : d.addDays? days = some sum) :
    d.addDays? other = some sum ↔ other = days := by
  constructor
  · intro same
    have first := dayNumber_of_ofDayNumber? found
    have second := dayNumber_of_ofDayNumber? same
    omega
  · rintro rfl
    exact found

end Date

/-! ## Rounding to whole days -/

/-- Rounding toward zero and rounding down leave the same number of days. -/
def RoundsAlike (nanos : Int) : Prop :=
  0 ≤ nanos ∨ nanosPerDay ∣ nanos

instance (nanos : Int) : Decidable (RoundsAlike nanos) :=
  inferInstanceAs (Decidable (_ ∨ _))

theorem tdiv_day (nanos : Int) :
    nanos.tdiv nanosPerDay = nanos / nanosPerDay + if RoundsAlike nanos then 0 else 1 :=
  Int.tdiv_eq_ediv

/-- The sum with whole days is the date of the instant if both roundings agree, and otherwise the
day after it. -/
theorem Date.ofInstant?_eq_some_iff {d sum : Date} {nanos : Int}
    (found : d.addDays? (nanos.tdiv nanosPerDay) = some sum) :
    (ofInstant? (d.midnight + nanos) = some sum ↔ RoundsAlike nanos) ∧
      (¬RoundsAlike nanos → sum.dayNumber = (d.midnight + nanos) / nanosPerDay + 1) := by
  have number := dayNumber_of_ofDayNumber? found
  have days := tdiv_day nanos
  rw [ofInstant?_midnight_add, addDays?_inj found, days]
  constructor
  · generalize nanos / nanosPerDay = whole
    by_cases alike : RoundsAlike nanos
    · simp only [alike, if_true, iff_true]
      omega
    · simp only [alike, if_false, iff_false]
      omega
  · intro differ
    rw [number, days, if_neg differ]
    unfold midnight nanosPerDay
    omega

namespace Interval

/-- The nanoseconds of the interval as it is written: what is below a microsecond is cut off, or
what is below a second if the interval is too long. -/
def written (i : Interval) : Int :=
  match i.micros? with
  | some micros => micros.toInt * 1000
  | none => i.wholeSeconds * 1000000000

theorem tdiv_cut (n unit count : Int) (positive : 0 < unit) :
    (n.tdiv unit * unit).tdiv (unit * count) = n.tdiv (unit * count) := by
  have forward (m : Int) (nonneg : 0 ≤ m) :
      (m.tdiv unit).tdiv count = m.tdiv (unit * count) := by
    rw [Int.tdiv_eq_ediv_of_nonneg nonneg, Int.tdiv_eq_ediv_of_nonneg nonneg,
      Int.tdiv_eq_ediv_of_nonneg (Int.ediv_nonneg nonneg (by omega)),
      Int.ediv_ediv_of_nonneg (by omega)]
  rw [Int.mul_comm _ unit, Int.mul_tdiv_mul_of_pos _ _ positive]
  by_cases nonneg : 0 ≤ n
  · exact forward n nonneg
  · have opposite := forward (-n) (by omega)
    rw [Int.neg_tdiv, Int.neg_tdiv, Int.neg_tdiv] at opposite
    omega

/-- The written interval has the same whole days. -/
theorem tdiv_written (i : Interval) : i.written.tdiv nanosPerDay = i.wholeDays := by
  unfold written
  split
  · rename_i micros fits
    rw [Number.word?_eq_some_iff.1 fits]
    exact tdiv_cut i.nanos 1000 86400000000 (by decide)
  · exact tdiv_cut i.nanos 1000000000 86400 (by decide)

/-- An interval of whole microseconds is written as it is, if they fit 64 bits. -/
theorem written_of_micros (i : Interval) {micros : Int64} (whole : i.nanos = micros.toInt * 1000) :
    i.written = i.nanos := by
  have cut : i.nanos.tdiv 1000 = micros.toInt := by
    rw [whole, Int.mul_tdiv_cancel _ (by decide)]
  have fits : i.micros? = some micros := Number.word?_eq_some_iff.2 cut.symm
  rw [written, fits, whole]

end Interval

end Calendar

/-! ## Seconds in decimal notation -/

namespace Number.Decimal

/-- The nanoseconds of a number of seconds that has at most nine places. -/
def nanos? (d : Decimal) : Option Int :=
  if d.places ≤ 9 then some (d.signed * 10 ^ (9 - d.places)) else none

theorem stripZeros_mul (coefficient places : Nat) :
    (stripZeros coefficient places).1 * 10 ^ (places - (stripZeros coefficient places).2) =
      coefficient := by
  induction places generalizing coefficient with
  | zero => simp [stripZeros]
  | succ places ih =>
      have fewer := (stripZeros_le (coefficient / 10) places).2
      rw [stripZeros]
      split
      · rw [Nat.succ_sub fewer, Nat.pow_succ, ← Nat.mul_assoc, ih]
        omega
      · simp

/-- Superfluous zeros do not change the number. -/
theorem nanos?_normalize {d : Decimal} (few : d.places ≤ 9) : d.normalize.nanos? = d.nanos? := by
  unfold normalize
  split
  · rename_i none
    simp [nanos?, few, zero, signed, none]
  · have fewer := (stripZeros_le d.coefficient d.places).2
    have value := stripZeros_mul d.coefficient d.places
    have exponent : 9 - (stripZeros d.coefficient d.places).2 =
        d.places - (stripZeros d.coefficient d.places).2 + (9 - d.places) := by omega
    have scaled : (stripZeros d.coefficient d.places).1 *
        10 ^ (9 - (stripZeros d.coefficient d.places).2) = d.coefficient * 10 ^ (9 - d.places) := by
      rw [exponent, Nat.pow_add, ← Nat.mul_assoc, value]
    have cast := congrArg Int.ofNat scaled
    simp only [Int.ofNat_eq_natCast, Int.natCast_mul, Int.natCast_pow, Int.cast_ofNat_Int] at cast
    simp only [nanos?, few, Nat.le_trans fewer few, if_true, signed]
    split
    · rw [Int.neg_mul, Int.neg_mul, cast]
    · rw [cast]

theorem nanos?_abs (d : Decimal) :
    d.abs.nanos? = d.nanos?.map fun nanos => if d.negative then -nanos else nanos := by
  unfold nanos? abs signed
  by_cases few : d.places ≤ 9
  · cases d.negative <;> simp [few]
  · simp [few]

theorem nanos?_ofInt64 (i : Int64) {places : Nat} (small : places ≤ 28) (few : places ≤ 9) :
    (ofInt64 i places small).nanos? = some (i.toInt * 10 ^ (9 - places)) := by
  have signed : (ofInt64 i places small).signed = i.toInt := by
    unfold ofInt64 signed
    dsimp only
    split <;> rename_i sign <;> simp only [decide_eq_true_eq] at sign <;> omega
  rw [nanos?, signed]
  exact if_pos few

end Number.Decimal

open Number

namespace Calendar.Interval

theorem nanos?_seconds (i : Interval) : i.seconds.nanos? = some i.written := by
  unfold seconds written
  cases i.micros? with
  | some micros =>
      have places : (Decimal.ofInt64 micros 6 (by decide)).places ≤ 9 := by simp [Decimal.ofInt64]
      exact (Decimal.nanos?_normalize places).trans
        (Decimal.nanos?_ofInt64 micros (by decide) (by decide))
  | none =>
      have whole : (Int64.ofInt i.wholeSeconds).toInt = i.wholeSeconds := by
        have short : i.wholeSeconds.natAbs = i.nanos.natAbs / 1000000000 := Int.natAbs_tdiv _ _
        have inRange := i.inRange
        unfold longest at inRange
        exact Int64.toInt_ofInt_of_le (by omega) (by omega)
      have read := Decimal.nanos?_ofInt64 (Int64.ofInt i.wholeSeconds) (Nat.zero_le 28)
        (Nat.zero_le 9)
      rwa [whole] at read

end Calendar.Interval

end RowQuery
