import RowQuery.Proofs.Number.Product

/-!
# Numbers in decimal notation

A sign, digits, and a point with more digits.  Such a number is read exactly if it has at most 28
places and its digits make a number below `2 ^ 96`.  It is not read any further than it goes: if
something else follows that does not belong to a number, nothing is read at all.
-/

namespace RowQuery

namespace Number

/-- The sign in front of a number, which may be missing. -/
inductive Sign where
  | none
  | plus
  | minus
  deriving DecidableEq

namespace Sign

def chars : Sign → List Char
  | none => []
  | plus => ['+']
  | minus => ['-']

/-- What a number behind the sign is multiplied by. -/
def factor : Sign → ℤ
  | none => 1
  | plus => 1
  | minus => -1

theorem of_mem_chars {sign : Sign} : ∀ c ∈ sign.chars, c = '+' ∨ c = '-' := by
  cases sign <;> simp [chars]

end Sign

/-- One digit or more. -/
structure DigitRun where
  chars : List Char
  nonempty : chars ≠ []
  digits : ∀ c ∈ chars, isDigit c = true

/-- The number that the digits stand for. -/
def DigitRun.value (run : DigitRun) : ℕ :=
  digitsValue run.chars

/-- A number without a sign: digits, and more of them behind a point.  One of the two parts may be
empty. -/
structure Numeral where
  whole : List Char
  fraction : Option (List Char)
  nonempty : whole ++ fraction.getD [] ≠ []
  digits : ∀ c ∈ whole ++ fraction.getD [], isDigit c = true

namespace Numeral

variable (n : Numeral)

def chars : List Char :=
  n.whole ++
    match n.fraction with
    | none => []
    | some fraction => '.' :: fraction

/-- The digits behind the point. -/
def places : ℕ :=
  (n.fraction.getD []).length

/-- The number that all digits make. -/
def number : ℕ :=
  digitsValue (n.whole ++ n.fraction.getD [])

/-- The number that is written. -/
def value : ℚ :=
  n.number / 10 ^ n.places

/-- A decimal has room for all digits. -/
def Fits : Prop :=
  n.places ≤ 28 ∧ n.number < Decimal.limit

/-- Digits without a point. -/
def ofRun (run : DigitRun) : Numeral where
  whole := run.chars
  fraction := none
  nonempty := by simpa using run.nonempty
  digits := by simpa using run.digits

theorem value_nonneg : 0 ≤ n.value :=
  div_nonneg (Nat.cast_nonneg _) (by positivity)

variable {n}

theorem of_mem_chars {c : Char} (member : c ∈ n.chars) : isDigit c = true ∨ c = '.' := by
  have digits := List.forall_mem_append.mp n.digits
  unfold chars at member
  rcases List.mem_append.mp member with front | back
  · exact .inl (digits.1 c front)
  · cases fraction : n.fraction with
    | none => simp [fraction] at back
    | some behind =>
        rw [fraction] at back digits
        rcases List.mem_cons.mp back with point | back
        · exact .inr point
        · exact .inl (digits.2 c back)

theorem chars_ne_nil : n.chars ≠ [] := by
  have nonempty := n.nonempty
  unfold chars
  cases fraction : n.fraction <;> simp_all

end Numeral

namespace Decimal

/-- All digits of a numeral are read, and then what follows. -/
theorem readFrom?_numeral {n : Numeral} (fits : n.Fits) (negative : Bool) (rest : List Char) :
    readFrom? negative ⟨0, 0, false, false⟩ (n.chars ++ rest) =
      readFrom? negative ⟨n.number, n.places, n.fraction.isSome, true⟩ rest := by
  obtain ⟨few, small⟩ := fits
  have digits := List.forall_mem_append.mp n.digits
  have nonempty := n.nonempty
  cases fraction : n.fraction with
  | none =>
      simp only [Numeral.chars, Numeral.number, Numeral.places, fraction, Option.getD_none,
        List.append_nil, digitsValue] at small digits nonempty ⊢
      rw [readFrom?_digits negative _ rest digits.1 small (fun _ => rfl)
        (fun seen => by cases seen)]
      have whole : n.whole.isEmpty = false := by simpa using nonempty
      simp [whole]
  | some behind =>
      simp only [Numeral.chars, Numeral.number, Numeral.places, fraction, Option.getD_some]
        at few small digits nonempty ⊢
      rw [digitsValue, digitsValueFrom_append] at small ⊢
      have smaller : digitsValueFrom 0 n.whole < limit :=
        Nat.lt_of_le_of_lt (le_digitsValueFrom _ behind) small
      rw [List.append_assoc, readFrom?_digits negative _ _ digits.1 smaller (fun _ => rfl)
        (fun seen => by cases seen)]
      have point : readFrom? negative
            ⟨digitsValueFrom 0 n.whole, 0, false, false || !n.whole.isEmpty⟩
            ('.' :: behind ++ rest) =
          readFrom? negative ⟨digitsValueFrom 0 n.whole, 0, true, !n.whole.isEmpty⟩
            (behind ++ rest) := by
        rw [List.cons_append, readFrom?]
        rfl
      refine point.trans ?_
      rw [readFrom?_digits negative _ rest digits.2 small (fun unseen => by cases unseen)
        (fun _ => by simpa [maxPlaces] using few)]
      have some : (!n.whole.isEmpty || !behind.isEmpty) = true := by
        cases whole : n.whole <;> cases behind <;> simp_all
      simp [some]

/-- With a sign in front the numeral is read in the same way. -/
theorem readPlain?_numeral {n : Numeral} (fits : n.Fits) (sign : Sign) (rest : List Char) :
    readPlain? (sign.chars ++ (n.chars ++ rest)) =
      readFrom? (sign = .minus) ⟨n.number, n.places, n.fraction.isSome, true⟩ rest := by
  cases sign with
  | minus => exact readFrom?_numeral fits true rest
  | plus => exact readFrom?_numeral fits false rest
  | none =>
      refine (readPlain?_unsigned fun c first => ?_).trans (readFrom?_numeral fits false rest)
      change c ∈ (n.chars ++ rest).head? at first
      rw [List.head?_append_of_ne_nil _ n.chars_ne_nil] at first
      rcases n.of_mem_chars (List.mem_of_mem_head? first) with digit | rfl
      · constructor <;> rintro rfl <;> cases digit
      · decide

/-- A numeral is no place to look for an exponent. -/
theorem not_exponent_of_mem {sign : Sign} {n : Numeral} :
    ∀ c ∈ sign.chars ++ n.chars, (c == 'e' || c == 'E') = false := by
  intro c member
  rcases List.mem_append.mp member with front | member
  · rcases Sign.of_mem_chars c front with rfl | rfl <;> rfl
  · rcases n.of_mem_chars member with digit | rfl
    · rw [Bool.or_eq_false_iff, beq_eq_false_iff_ne, beq_eq_false_iff_ne]
      constructor <;> rintro rfl <;> cases digit
    · rfl

/-- A numeral is read with its digits and its places. -/
theorem read?_numeral {n : Numeral} (fits : n.Fits) (sign : Sign) :
    read? (sign.chars ++ n.chars) = make? (sign = .minus) n.number n.places := by
  have plain := readPlain?_numeral fits sign []
  rw [List.append_nil] at plain
  rw [read?, Text.cutAt?_eq_none not_exponent_of_mem]
  exact plain

/-- A numeral is read exactly. -/
theorem exists_read?_numeral {n : Numeral} (fits : n.Fits) (sign : Sign) :
    ∃ d, read? (sign.chars ++ n.chars) = some d ∧
      (d.negative = (sign = .minus && n.number != 0) ∧ d.coefficient = n.number ∧
        d.places = n.places) ∧ d.toRat = sign.factor * n.value := by
  have made : make? (sign = .minus) n.number n.places =
      some ⟨_, n.number, n.places, fits.2, fits.1⟩ := dif_pos ⟨fits.2, fits.1⟩
  refine ⟨_, (read?_numeral fits sign).trans made, ⟨rfl, rfl, rfl⟩, ?_⟩
  rw [toRat_of_make? made, Numeral.value]
  cases sign <;> simp [Sign.factor]

/-- Nothing is read of a numeral that something follows that is no part of a number. -/
theorem read?_numeral_append {n : Numeral} (fits : n.Fits) (sign : Sign) {c : Char}
    (rest : List Char)
    (stops : isDigit c = false ∧ c ≠ '.' ∧ c ≠ '_' ∧ c ≠ 'e' ∧ c ≠ 'E') :
    read? (sign.chars ++ n.chars ++ c :: rest) = none := by
  have plain (rest : List Char) : readPlain? (sign.chars ++ n.chars ++ [c] ++ rest) = none := by
    rw [List.append_assoc, List.append_assoc, readPlain?_numeral fits sign]
    simp [readFrom?, roundOff?, stops]
  have absent : ∀ b ∈ sign.chars ++ n.chars ++ [c], (b == 'e' || b == 'E') = false :=
    List.forall_mem_append.mpr ⟨not_exponent_of_mem, by simp [stops]⟩
  rw [List.append_cons, read?, Text.cutAt?_append_left rest absent]
  cases Text.cutAt? (fun b => b == 'e' || b == 'E') rest with
  | none => exact plain rest
  | some parts => exact congrArg (Option.bind · _) (plain parts.1)

/-- The text of a decimal is a numeral behind a sign. -/
theorem exists_numeral (d : Decimal) : ∃ n : Numeral,
    d.toText.toList = (if d.negative then Sign.minus else Sign.none).chars ++ n.chars ∧
      n.number = d.coefficient ∧ n.places = d.places := by
  obtain ⟨whole, fraction, text, present, length, written⟩ := d.magnitudeChars_eq
  have each : ∀ c ∈ whole ++ fraction, isDigit c = true := fun c member =>
    isDigit_of_mem_padZeros (text ▸ member)
  have value : digitsValue (whole ++ fraction) = d.coefficient := by
    rw [← text]
    exact digitsValue_padZeros _ _
  have signed : d.toText.toList =
      (if d.negative then Sign.minus else Sign.none).chars ++ d.magnitudeChars := by
    rw [toList_toText]
    cases d.negative <;> rfl
  by_cases none : d.places = 0
  · obtain rfl : fraction = [] := List.length_eq_zero_iff.mp (length.trans none)
    rw [if_pos none] at written
    rw [signed, written]
    exact ⟨⟨whole, Option.none, by simpa using present, by simpa using each⟩,
      by simp [Numeral.chars], value, none.symm⟩
  · rw [if_neg none] at written
    rw [signed, written]
    exact ⟨⟨whole, some fraction, by simp [present], each⟩, rfl, value, length⟩

end Decimal

end Number

end RowQuery
