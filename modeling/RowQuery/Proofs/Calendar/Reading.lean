import RowQuery.Calendar.Reading
import RowQuery.Proofs.Number.Reading

/-!
# Dates and times are read back

What is written of a date, a time of day or a moment has the first of the forms that are tried,
and its fields are those that were written: years beyond four digits, fractions and leap seconds
too.
-/

namespace RowQuery.Calendar

open RowQuery.Number

/-! ## Fields -/

/-- The digits at the start of a text, up to the largest number of them that is read. -/
theorem takeWhile_take {test : Char → Bool} {found : List Char} {most : Nat}
    (each : ∀ c ∈ found, test c = true) (rest : List Char) (fits : found.length ≤ most)
    (ended : found.length = most ∨ ∀ c ∈ rest.head?, test c = false) :
    ((found ++ rest).take most).takeWhile test = found := by
  have nothing : (rest.take (most - found.length)).takeWhile test = [] := by
    rcases ended with full | ended
    · rw [full, Nat.sub_self]
      rfl
    · cases rest with
      | nil => simp
      | cons c rest =>
          cases most - found.length with
          | zero => rfl
          | succ more => simp [ended c rfl]
  rw [List.take_append, List.take_of_length_le fits, List.takeWhile_append_of_pos each, nothing,
    List.append_nil]

theorem readDigits?_padZeros {width n most : Nat} {rest : List Char} (small : n ≤ largestField)
    (fits : (padZeros width (digits n)).length ≤ most)
    (ended : (padZeros width (digits n)).length = most ∨ ∀ c ∈ rest.head?, isDigit c = false) :
    readDigits? most (padZeros width (digits n) ++ rest) = some (n, rest) := by
  have found := takeWhile_take (fun _ => isDigit_of_mem_padZeros) rest fits ended
  have present : (padZeros width (digits n)).isEmpty = false := by
    simpa using padZeros_ne_nil width n
  rw [readDigits?]
  simp only [found, present, digitsValue_padZeros, List.drop_left, Bool.false_eq_true, if_false]
  rw [if_neg (by omega)]

theorem isDigit_of_head_padZeros {width n : Nat} {rest : List Char} {c : Char}
    (first : c ∈ (padZeros width (digits n) ++ rest).head?) : isDigit c = true := by
  obtain ⟨digit, more, written⟩ := List.exists_cons_of_ne_nil (padZeros_ne_nil width n)
  have member : digit ∈ padZeros width (digits n) := written ▸ List.mem_cons_self
  rw [written] at first
  exact Option.some.inj first ▸ isDigit_of_mem_padZeros member

/-- A field of two digits. -/
theorem readPair?_padded {n : Nat} (small : n < 100) (rest : List Char) :
    readPair? ((paddedText 2 n).toList ++ rest) = some (n, rest) := by
  have length : (padZeros 2 (digits n)).length = 2 := length_padZeros 1 small
  have first : ∀ c ∈ (padZeros 2 (digits n) ++ rest).head?, Text.isBlank c = false :=
    fun c first => Text.isBlank_of_isDigit (isDigit_of_head_padZeros first)
  rw [paddedText, String.toList_ofList, readPair?, Text.dropWhile_of_head first]
  have bounded : n ≤ largestField := by
    unfold largestField
    omega
  exact readDigits?_padZeros bounded (Nat.le_of_eq length) (.inl length)

theorem toList_yearText (year : Int) : (Date.yearText year).toList =
    if 0 ≤ year ∧ year ≤ 9999 then padZeros 4 (digits year.toNat)
    else (if year < 0 then '-' else '+') :: padZeros 4 (digits year.natAbs) := by
  unfold Date.yearText paddedText
  split
  · simp
  · split <;> simp

theorem readYear?_unsigned {text : List Char} (unsigned : ∀ c ∈ text.head?, c ≠ '-' ∧ c ≠ '+') :
    readYear? text = ((readDigits? 4 text).map fun (n, more) => ((n : Int), more)).filter
      fun (year, _) => -0x80000000 ≤ year && year < 0x80000000 := by
  unfold readYear?
  split
  · exact absurd rfl (unsigned _ rfl).1
  · exact absurd rfl (unsigned _ rfl).2
  · rfl

theorem readYear?_yearText {year : Int} (inRange : -262143 ≤ year ∧ year ≤ 262142)
    (rest : List Char) : readYear? ((Date.yearText year).toList ++ '-' :: rest) =
      some (year, '-' :: rest) := by
  have kept : (-0x80000000 ≤ year && year < 0x80000000) = true := by
    rw [Bool.and_eq_true, decide_eq_true_eq, decide_eq_true_eq]
    omega
  have bounded (n : Nat) (small : n ≤ 262143) : n ≤ largestField := by
    unfold largestField
    omega
  rw [toList_yearText]
  split
  · rename_i plain
    have small : year.toNat < 10000 := by omega
    have length : (padZeros 4 (digits year.toNat)).length = 4 := length_padZeros 3 small
    have value : (year.toNat : Int) = year := by omega
    rw [readYear?_unsigned fun c first => ?_,
      readDigits?_padZeros (bounded _ (by omega)) (Nat.le_of_eq length) (.inl length)]
    · simp [value, kept]
    · have digit := isDigit_of_head_padZeros first
      constructor <;> rintro rfl <;> cases digit
  · rename_i signed
    have found : readDigits? (padZeros 4 (digits year.natAbs) ++ '-' :: rest).length
        (padZeros 4 (digits year.natAbs) ++ '-' :: rest) = some (year.natAbs, '-' :: rest) := by
      refine readDigits?_padZeros (bounded _ (by omega)) ?_ (.inr ?_)
      · simp
      · rintro c ⟨⟩
        rfl
    split
    · have value : -(year.natAbs : Int) = year := by omega
      rw [List.cons_append, readYear?]
      dsimp only
      rw [found]
      simp only [Option.map_some, value, Option.filter_some, kept, if_true]
    · have value : (year.natAbs : Int) = year := by omega
      rw [List.cons_append, readYear?]
      dsimp only
      rw [found]
      simp only [Option.map_some, value, Option.filter_some, kept, if_true]

/-! ## Forms -/

/-- One part of a form is read, and then the others. -/
theorem go_cons {part : FormPart} {parts : List FormPart} {fields fields' : Fields}
    {text rest : List Char} (read : part.read? fields text = some (fields', rest)) :
    readForm?.go (part :: parts) fields text = readForm?.go parts fields' rest := by
  rw [readForm?.go, read]
  rfl

theorem literal_read? (c : Char) (fields : Fields) (rest : List Char) :
    (FormPart.literal c).read? fields (c :: rest) = some (fields, rest) := by
  simp [FormPart.read?]

/-- The fields of two digits. -/
theorem pair_read? {n : Nat} (small : n < 100) (fields : Fields) (rest : List Char) :
    let text := (paddedText 2 n).toList ++ rest
    FormPart.month.read? fields text = some ({ fields with month := n }, rest) ∧
      FormPart.day.read? fields text = some ({ fields with day := n }, rest) ∧
      FormPart.hour.read? fields text = some ({ fields with hour := n }, rest) ∧
      FormPart.minute.read? fields text = some ({ fields with minute := n }, rest) ∧
      FormPart.second.read? fields text = some ({ fields with second := n }, rest) := by
  simp [FormPart.read?, readPair?_padded small]

theorem year_read? {year : Int} (inRange : -262143 ≤ year ∧ year ≤ 262142) (fields : Fields)
    (rest : List Char) :
    FormPart.year.read? fields ((Date.yearText year).toList ++ '-' :: rest) =
      some ({ fields with year }, '-' :: rest) := by
  have first : ∀ c ∈ ((Date.yearText year).toList ++ '-' :: rest).head?, Text.isBlank c = false := by
    intro c first
    rw [toList_yearText] at first
    split at first
    · exact Text.isBlank_of_isDigit (isDigit_of_head_padZeros first)
    · obtain rfl := Option.some.inj first
      split <;> rfl
  rw [FormPart.read?, Text.dropWhile_of_head first, readYear?_yearText inRange]
  rfl

theorem Date.bounds (d : Date) :
    (-262143 ≤ d.year ∧ d.year ≤ 262142) ∧ d.month < 100 ∧ d.day < 100 := by
  obtain ⟨low, high, -, month, -, day⟩ := d.valid
  have most : daysInMonth d.year d.month ≤ 31 := by
    unfold daysInMonth
    split
    · split <;> omega
    · split <;> omega
  exact ⟨⟨low, high⟩, by omega, by omega⟩

theorem Date.toList_toText (d : Date) : d.toText.toList = (Date.yearText d.year).toList ++
    '-' :: ((paddedText 2 d.month).toList ++ '-' :: (paddedText 2 d.day).toList) := by
  simp [Date.toText, String.toList_append]

/-- The date in front of whatever form follows. -/
theorem go_date (d : Date) (parts : List FormPart) (fields : Fields) (rest : List Char) :
    readForm?.go (dateForm ++ parts) fields (d.toText.toList ++ rest) =
      readForm?.go parts { fields with year := d.year, month := d.month, day := d.day } rest := by
  obtain ⟨year, month, day⟩ := d.bounds
  rw [d.toList_toText, dateForm]
  simp only [List.cons_append, List.nil_append, List.append_assoc]
  rw [go_cons (year_read? year _ _), go_cons (literal_read? _ _ _),
    go_cons (pair_read? month _ _).1, go_cons (literal_read? _ _ _),
    go_cons (pair_read? day _ _).2.1]

theorem readNanos?_padZeros (width n : Nat) (small : n < Nat.pow 10 (width + 1))
    (fits : width < 9) :
    readNanos? (padZeros (width + 1) (digits n)) = some (n * Nat.pow 10 (8 - width), []) := by
  have length := length_padZeros width small
  have each : ∀ c ∈ padZeros (width + 1) (digits n), isDigit c = true :=
    fun _ => isDigit_of_mem_padZeros
  have found : ((padZeros (width + 1) (digits n)).take 9).takeWhile isDigit =
      padZeros (width + 1) (digits n) := by
    have fits : (padZeros (width + 1) (digits n)).length ≤ 9 := by omega
    have := takeWhile_take each [] fits (.inr (by simp))
    rwa [List.append_nil] at this
  have present : (padZeros (width + 1) (digits n)).isEmpty = false := by
    simpa using padZeros_ne_nil (width + 1) n
  have done : (padZeros (width + 1) (digits n)).dropWhile isDigit = [] := by
    rw [← List.append_nil (padZeros (width + 1) (digits n)), List.dropWhile_append_of_pos each]
    rfl
  have missing : 9 - (width + 1) = 8 - width := by omega
  rw [readNanos?]
  simp [found, present, done, digitsValue_padZeros, length, missing]

theorem fraction_read? {fields : Fields} (fresh : fields.nano = 0) {nanos : Nat}
    (small : nanos < 1000000000) :
    FormPart.fraction.read? fields (Clock.fractionText nanos).toList =
      some ({ fields with nano := nanos }, []) := by
  unfold Clock.fractionText paddedText
  split
  · rename_i none
    simp [FormPart.read?, none, ← fresh]
  · split
    · rename_i millis
      have below : nanos / 1000000 < 1000 := by omega
      have found := readNanos?_padZeros 2 (nanos / 1000000) below (by decide)
      have value : nanos / 1000000 * Nat.pow 10 6 = nanos := by
        rw [show Nat.pow 10 6 = 1000000 from rfl]
        omega
      simp [FormPart.read?, found, value]
    · split
      · rename_i micros
        have below : nanos / 1000 < 1000000 := by omega
        have found := readNanos?_padZeros 5 (nanos / 1000) below (by decide)
        have value : nanos / 1000 * Nat.pow 10 3 = nanos := by
          rw [show Nat.pow 10 3 = 1000 from rfl]
          omega
        simp [FormPart.read?, found, value]
      · have found := readNanos?_padZeros 8 nanos small (by decide)
        simp [FormPart.read?, found]

theorem Clock.bounds (c : Clock) : c.hour < 24 ∧ c.minute < 60 ∧ c.shownSecond ≤ 60 ∧
    c.shownNanos < 1000000000 := by
  have := c.seconds_lt
  unfold hour minute shownSecond second shownNanos
  refine ⟨by omega, by omega, ?_, by omega⟩
  split <;> omega

theorem Clock.toList_toText (c : Clock) : c.toText.toList = (paddedText 2 c.hour).toList ++
    ':' :: ((paddedText 2 c.minute).toList ++ ':' :: ((paddedText 2 c.shownSecond).toList ++
      (Clock.fractionText c.shownNanos).toList)) := by
  simp [Clock.toText, Clock.secondsText, String.toList_append]

/-- The fields of a time of day at the end of a text. -/
theorem go_clock (c : Clock) {fields : Fields} (fresh : fields.nano = 0) :
    readForm?.go clockForm fields c.toText.toList =
      some { fields with
        hour := c.hour, minute := c.minute, second := c.shownSecond, nano := c.shownNanos } := by
  obtain ⟨hour, minute, second, nanos⟩ := c.bounds
  rw [c.toList_toText, clockForm, go_cons (pair_read? (by omega) _ _).2.2.1, go_cons (literal_read? _ _ _),
    go_cons (pair_read? (by omega) _ _).2.2.2.1, go_cons (literal_read? _ _ _),
    go_cons (pair_read? (by omega) _ _).2.2.2.2, go_cons (fraction_read? (by exact fresh) nanos)]
  rfl

/-! ## Dates, times and moments -/

/-- The fields that are written of a time of day name it. -/
theorem Clock.ofFields?_shown (c : Clock) :
    ofFields? c.hour c.minute c.shownSecond c.shownNanos = some c := by
  obtain ⟨hour, minute, second, nanos⟩ := c.bounds
  have whole : c.hour * 3600 + c.minute * 60 + c.second = c.seconds := by
    unfold Clock.hour Clock.minute Clock.second
    omega
  have valid : c.seconds < 86400 ∧ c.nanos < 2000000000 ∧
      (1000000000 ≤ c.nanos → c.seconds % 60 = 59) := ⟨c.seconds_lt, c.nanos_lt, c.leap⟩
  rw [ofFields?, if_neg (by omega)]
  by_cases leap : c.nanos < 1000000000
  · have plain : c.shownSecond = c.second ∧ c.shownNanos = c.nanos := by
      unfold shownSecond shownNanos
      rw [if_pos leap]
      omega
    have below : c.second < 60 := Nat.mod_lt _ (by decide)
    rw [plain.1, plain.2, if_neg (by omega), whole, make?, dif_pos valid]
  · have last : c.second = 59 := c.leap (by omega)
    have shown : c.shownSecond = 60 ∧ 1000000000 + c.shownNanos = c.nanos := by
      have := c.nanos_lt
      unfold shownSecond shownNanos
      rw [if_neg leap]
      omega
    rw [last] at whole
    rw [if_pos shown.1, shown.2, whole, make?, dif_pos valid]

theorem Date.make?_self (d : Date) : make? d.year d.month d.day = some d := by
  rw [make?, dif_pos d.valid]

theorem unblank_single {c : Char} (unblank : Text.isBlank c = false) :
    ∀ x ∈ [c], Text.isBlank x = false :=
  fun _ member => List.mem_singleton.1 member ▸ unblank

theorem unblank_padded (width n : Nat) :
    ∀ c ∈ (paddedText width n).toList, Text.isBlank c = false := by
  rw [paddedText, String.toList_ofList]
  exact fun _ member => Text.isBlank_of_isDigit (isDigit_of_mem_padZeros member)

theorem Date.unblank_toText (d : Date) : ∀ c ∈ d.toText.toList, Text.isBlank c = false := by
  have year : ∀ c ∈ (yearText d.year).toList, Text.isBlank c = false := by
    unfold yearText
    split
    · exact unblank_padded 4 _
    · split <;>
      · rw [String.toList_append, List.forall_mem_append]
        exact ⟨unblank_single rfl, unblank_padded 4 _⟩
  rw [d.toList_toText]
  simp only [List.forall_mem_append, List.forall_mem_cons]
  exact ⟨year, rfl, unblank_padded 2 _, rfl, unblank_padded 2 _⟩

theorem Clock.unblank_toText (c : Clock) : ∀ x ∈ c.toText.toList, Text.isBlank x = false := by
  have fraction : ∀ x ∈ (fractionText c.shownNanos).toList, Text.isBlank x = false := by
    unfold fractionText
    repeat' split
    · nofun
    all_goals
      rw [String.toList_append, List.forall_mem_append]
      exact ⟨unblank_single rfl, unblank_padded _ _⟩
  rw [c.toList_toText]
  simp only [List.forall_mem_append, List.forall_mem_cons]
  exact ⟨unblank_padded 2 _, rfl, unblank_padded 2 _, rfl, unblank_padded 2 _, fraction⟩

theorem readPlainDate?_toText (d : Date) : readPlainDate? d.toText.toList = some d := by
  have read := go_date d [] {} []
  rw [List.append_nil, List.append_nil] at read
  rw [readPlainDate?, readForm?, read]
  exact d.make?_self

theorem readDate?_toText (d : Date) : readDate? d.toText = some d := by
  rw [readDate?, Text.trimChars_of_unblank d.unblank_toText, readPlainDate?_toText]
  rfl

theorem readClock?_toText (c : Clock) : readClock? c.toText = some c := by
  have fields : (readForm? clockForm c.toText.toList).bind Fields.clock? = some c := by
    rw [readForm?, go_clock c rfl]
    exact c.ofFields?_shown
  rw [readClock?, Text.trimChars_of_unblank c.unblank_toText, fields]
  rfl

theorem Moment.toList_toText (m : Moment) :
    (m.toText " ").toList = m.date.toText.toList ++ ' ' :: m.clock.toText.toList := by
  simp [toText, String.toList_append]

theorem Moment.trimChars_toText (m : Moment) :
    Text.trimChars (m.toText " ").toList = (m.toText " ").toList := by
  rw [m.toList_toText]
  have date := m.date.unblank_toText
  have clock := m.clock.unblank_toText
  obtain ⟨first, more, dateText⟩ : ∃ first more, m.date.toText.toList = first :: more := by
    rw [m.date.toList_toText]
    exact List.exists_cons_of_ne_nil (by simp)
  refine Text.trimChars_of_ends ?_ fun c last => ?_
  · rw [dateText] at date ⊢
    rintro c ⟨⟩
    exact date first List.mem_cons_self
  · rw [List.append_cons, List.getLast?_append] at last
    cases clockLast : m.clock.toText.toList.getLast? with
    | none =>
        rw [List.getLast?_eq_none_iff, m.clock.toList_toText] at clockLast
        simp at clockLast
    | some x =>
        rw [clockLast] at last
        obtain rfl := Option.some.inj last
        exact clock x (List.mem_of_mem_getLast? clockLast)

theorem readMoment?_toText (m : Moment) : readMoment? (m.toText " ") = some m := by
  have fields : (readForm? (dateForm ++ .blanks :: clockForm) (m.toText " ").toList).bind
      Fields.moment? = some m := by
    have blank (fields : Fields) : FormPart.blanks.read? fields (' ' :: m.clock.toText.toList) =
        some (fields, m.clock.toText.toList) := by
      have first : ∀ c ∈ m.clock.toText.toList.head?, Text.isBlank c = false := fun c first =>
        m.clock.unblank_toText c (List.mem_of_mem_head? first)
      rw [FormPart.read?, List.dropWhile_cons_of_pos rfl, Text.dropWhile_of_head first]
    rw [readForm?, m.toList_toText, go_date, go_cons (blank _), go_clock m.clock (by rfl)]
    have date := m.date.make?_self
    have clock := m.clock.ofFields?_shown
    simp [Fields.moment?, Fields.date?, Fields.clock?, date, clock]
  rw [readMoment?, m.trimChars_toText, fields]
  rfl

end RowQuery.Calendar
