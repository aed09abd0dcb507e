import Mathlib.Algebra.Group.Nat.Defs
import RowQuery.Calendar.Seconds

/-!
# Numbers are read back

Integers and decimals are read back from their texts: an integer as it was, a decimal with its
digits and places.  Only the sign of a zero is not read.
-/

namespace RowQuery

open RowQuery.Number

namespace Text

/-- Nothing is dropped in front of a character that stays. -/
theorem dropWhile_of_head {test : Char → Bool} {text : List Char}
    (first : ∀ c ∈ text.head?, test c = false) : text.dropWhile test = text := by
  cases text with
  | nil => rfl
  | cons c text => rw [List.dropWhile_cons_of_neg (by simp [first c rfl])]

/-- Nothing is trimmed from a text that neither begins nor ends with a blank. -/
theorem trimChars_of_ends {text : List Char} (first : ∀ c ∈ text.head?, isBlank c = false)
    (last : ∀ c ∈ text.getLast?, isBlank c = false) : trimChars text = text := by
  rw [List.getLast?_eq_head?_reverse] at last
  rw [trimChars, stripWhile, dropWhile_of_head first, dropWhile_of_head last,
    List.reverse_reverse]

theorem trimChars_of_unblank {text : List Char} (unblank : ∀ c ∈ text, isBlank c = false) :
    trimChars text = text :=
  trimChars_of_ends (fun c first => unblank c (List.mem_of_mem_head? first))
    (fun c last => unblank c (List.mem_of_mem_getLast? last))

theorem cutAt?_eq_none {test : Char → Bool} {text : List Char}
    (absent : ∀ c ∈ text, test c = false) : cutAt? test text = none := by
  induction text with
  | nil => rfl
  | cons c text ih =>
      rw [List.forall_mem_cons] at absent
      simp [cutAt?, absent.1, ih absent.2]

/-- A text is cut behind a front in which there is no place to cut it. -/
theorem cutAt?_append_left {test : Char → Bool} {front : List Char} (rest : List Char)
    (absent : ∀ c ∈ front, test c = false) :
    cutAt? test (front ++ rest) =
      (cutAt? test rest).map fun (before, after) => (front ++ before, after) := by
  induction front with
  | nil => simp
  | cons c front ih =>
      rw [List.forall_mem_cons] at absent
      rw [List.cons_append, cutAt?, absent.1, if_neg Bool.false_ne_true, ih absent.2,
        Option.map_map]
      rfl

theorem isBlank_of_isDigit {c : Char} (digit : isDigit c = true) : isBlank c = false := by
  simp only [isDigit, Bool.and_eq_true, decide_eq_true_eq] at digit
  simp only [isBlank, Bool.or_eq_false_iff, Bool.and_eq_false_iff, decide_eq_false_iff_not,
    beq_eq_false_iff_ne]
  omega

end Text

namespace Number

/-! ## Digits -/

theorem digitsValueFrom_append (start : Nat) (first second : List Char) :
    digitsValueFrom start (first ++ second) =
      digitsValueFrom (digitsValueFrom start first) second :=
  List.foldl_append

theorem le_digitsValueFrom (start : Nat) (text : List Char) : start ≤ digitsValueFrom start text := by
  induction text generalizing start with
  | nil => exact Nat.le_refl start
  | cons c text ih =>
      calc start ≤ start * 10 + digitOf c := by omega
        _ ≤ digitsValueFrom (start * 10 + digitOf c) text := ih _

theorem isDigit_of_mem_padZeros {width n : Nat} {c : Char}
    (member : c ∈ padZeros width (digits n)) : isDigit c = true := by
  rcases List.mem_append.1 member with zero | digit
  · rw [List.eq_of_mem_replicate zero]
    rfl
  · exact isDigit_of_mem_digits n c digit

theorem digitsValue_padZeros (width n : Nat) : digitsValue (padZeros width (digits n)) = n := by
  have zeros (count : Nat) : digitsValueFrom 0 (List.replicate count '0') = 0 := by
    induction count with
    | zero => rfl
    | succ count ih => exact ih
  rw [digitsValue, padZeros, digitsValueFrom_append, zeros]
  exact digitsValue_digits n

theorem length_digits_le {width n : Nat} (small : n < Nat.pow 10 (width + 1)) :
    (digits n).length ≤ width + 1 := by
  induction width generalizing n with
  | zero =>
      have single : n < 10 := small
      rw [digits, dif_pos single]
      exact Nat.le_refl 1
  | succ width ih =>
      rw [digits]
      split
      · simp
      · have shorter : n / 10 < Nat.pow 10 (width + 1) := by
          rw [Nat.div_lt_iff_lt_mul (by decide)]
          exact small
        have := ih shorter
        simpa using this

/-- A number with at most so many digits has exactly as many when it is filled up. -/
theorem length_padZeros (width : Nat) {n : Nat} (small : n < Nat.pow 10 (width + 1)) :
    (padZeros (width + 1) (digits n)).length = width + 1 := by
  have := length_digits_le small
  simp only [padZeros, List.length_append, List.length_replicate]
  omega

theorem padZeros_ne_nil (width n : Nat) : padZeros width (digits n) ≠ [] := by
  simp [padZeros, digits_ne_nil]

/-- If one power is at most another, so are all whose exponents stand in at least that
proportion. -/
theorem pow_le_pow_of_ratio {a b p q m n : Nat} (positive : p ≠ 0) (base : 0 < b)
    (sample : a ^ p ≤ b ^ q) (ratio : q * m ≤ p * n) : a ^ m ≤ b ^ n := by
  refine (Nat.pow_le_pow_iff_left positive).mp ?_
  calc (a ^ m) ^ p = (a ^ p) ^ m := Nat.pow_right_comm a m p
    _ ≤ (b ^ q) ^ m := Nat.pow_le_pow_left sample m
    _ = b ^ (q * m) := (Nat.pow_mul b q m).symm
    _ ≤ b ^ (p * n) := Nat.pow_le_pow_right base ratio
    _ = (b ^ n) ^ p := by rw [Nat.mul_comm, Nat.pow_mul]

theorem digitCount_le_iff {n width : Nat} : digitCount n ≤ width ↔ n < 10 ^ width := by
  induction width generalizing n with
  | zero =>
      rw [digitCount]
      split <;> omega
  | succ width ih =>
      rw [digitCount, Nat.pow_succ]
      split
      · rename_i zero
        have : 0 < 10 ^ width := Nat.pow_pos (by decide)
        omega
      · rw [Nat.add_le_add_iff_right, ih]
        omega

theorem pow_digitCount_le {n : Nat} (pos : n ≠ 0) : 10 ^ digitCount n ≤ 10 * n := by
  have split : digitCount n = digitCount (n / 10) + 1 := by
    rw [digitCount, dif_neg pos]
  have least : ¬ n < 10 ^ digitCount (n / 10) := by
    rw [← digitCount_le_iff]
    omega
  rw [split, Nat.pow_succ]
  omega

/-! ## Integers -/

theorem readNat?_digits (n : Nat) : readNat? (digits n) = some n := by
  have every : (digits n).all isDigit = true := List.all_eq_true.2 (isDigit_of_mem_digits n)
  simp [readNat?, digits_ne_nil, every, digitsValue_digits]

theorem toList_intText (i : Int) :
    (intText i).toList = if i < 0 then '-' :: digits i.natAbs else digits i.natAbs := by
  unfold intText natText
  split <;> simp

theorem readInt?_of_digits {text : List Char} (digits : ∀ c ∈ text, isDigit c = true) :
    readInt? text = (readNat? text).map Int.ofNat := by
  cases text with
  | nil => rfl
  | cons c text =>
      have digit := digits c List.mem_cons_self
      unfold readInt?
      split
      · rename_i same
        rw [(List.cons.inj same).1] at digit
        cases digit
      · rename_i same
        rw [(List.cons.inj same).1] at digit
        cases digit
      · cases readNat? (c :: text) <;> rfl

theorem readInt?_intText (i : Int) : readInt? (intText i).toList = some i := by
  rw [toList_intText]
  split
  · rename_i negative
    rw [readInt?, readNat?_digits]
    exact congrArg some (show -(i.natAbs : Int) = i by omega)
  · rename_i natural
    rw [readInt?_of_digits (isDigit_of_mem_digits _), readNat?_digits]
    exact congrArg some (show (i.natAbs : Int) = i by omega)

theorem readWord?_intText (i : Int64) :
    Calendar.readWord? (intText i.toInt).toList = some i := by
  rw [Calendar.readWord?, readInt?_intText]
  exact word?_eq_some_iff.2 rfl

theorem unblank_intText (i : Int) : ∀ c ∈ (intText i).toList, Text.isBlank c = false := by
  have unblank : ∀ c ∈ digits i.natAbs, Text.isBlank c = false := fun c member =>
    Text.isBlank_of_isDigit (isDigit_of_mem_digits _ c member)
  rw [toList_intText]
  split
  · exact List.forall_mem_cons.2 ⟨rfl, unblank⟩
  · exact unblank

/-! ## Decimals -/

namespace Decimal

/-- Read on over digits that find room. -/
theorem readFrom?_digits (negative : Bool) (p : Progress) {digits : List Char}
    (rest : List Char) (each : ∀ c ∈ digits, isDigit c = true)
    (value : digitsValueFrom p.coefficient digits < limit)
    (whole : p.seenPoint = false → p.places = 0)
    (fraction : p.seenPoint = true → p.places + digits.length ≤ maxPlaces) :
    readFrom? negative p (digits ++ rest) =
      readFrom? negative
        { coefficient := digitsValueFrom p.coefficient digits
          places := if p.seenPoint then p.places + digits.length else 0
          seenPoint := p.seenPoint
          seenDigit := p.seenDigit || !digits.isEmpty } rest := by
  induction digits generalizing p with
  | nil =>
      obtain ⟨coefficient, places, seenPoint, seenDigit⟩ := p
      cases seenPoint with
      | true => simp [digitsValueFrom]
      | false =>
          obtain rfl : places = 0 := whole rfl
          simp [digitsValueFrom]
  | cons c digits ih =>
      obtain ⟨digit, others⟩ := List.forall_mem_cons.1 each
      have longer : digitsValueFrom (p.coefficient * 10 + digitOf c) digits < limit := value
      have fits : p.coefficient * 10 + digitOf c < limit :=
        Nat.lt_of_le_of_lt (le_digitsValueFrom _ digits) longer
      have room : (p.seenPoint && decide (maxPlaces ≤ p.places)) = false := by
        cases seen : p.seenPoint with
        | false => rfl
        | true =>
            have := fraction seen
            rw [List.length_cons] at this
            simp only [Bool.true_and, decide_eq_false_iff_not]
            omega
      rw [List.cons_append, readFrom?]
      simp only [room, digit, fits, if_true, if_false, Bool.false_eq_true]
      rw [ih _ others longer]
      · cases p.seenPoint <;> simp [digitsValueFrom, Nat.add_comm, Nat.add_left_comm]
      · intro (unseen : p.seenPoint = false)
        simp [unseen]
      · intro (seen : p.seenPoint = true)
        have := fraction seen
        simp only [seen, if_true]
        rw [List.length_cons] at this
        omega

/-- The digits before the point and those behind it. -/
theorem magnitudeChars_eq (d : Decimal) : ∃ whole fraction : List Char,
    padZeros (d.places + 1) (digits d.coefficient) = whole ++ fraction ∧ whole ≠ [] ∧
      fraction.length = d.places ∧
      d.magnitudeChars = if d.places = 0 then whole else whole ++ '.' :: fraction := by
  have long : d.places + 1 ≤ (padZeros (d.places + 1) (digits d.coefficient)).length := by
    simp only [padZeros, List.length_append, List.length_replicate]
    omega
  unfold magnitudeChars
  generalize padZeros (d.places + 1) (digits d.coefficient) = text at long ⊢
  refine ⟨text.take (text.length - d.places), text.drop (text.length - d.places),
    (List.take_append_drop _ text).symm, ?_, ?_, ?_⟩
  · rw [Ne, List.take_eq_nil_iff, not_or]
    constructor
    · omega
    · rintro rfl
      simp at long
  · rw [List.length_drop]
    omega
  · dsimp only
    split
    · rename_i none
      rw [none, Nat.sub_zero, List.take_length]
    · rfl

/-- A number without a sign is read with the digits and places that it was written with. -/
theorem readFrom?_magnitude (d : Decimal) (negative : Bool) :
    readFrom? negative ⟨0, 0, false, false⟩ d.magnitudeChars =
      make? negative d.coefficient d.places := by
  obtain ⟨whole, fraction, text, present, length, written⟩ := d.magnitudeChars_eq
  have each : ∀ c ∈ whole ++ fraction, isDigit c = true := fun c member =>
    isDigit_of_mem_padZeros (text ▸ member)
  rw [List.forall_mem_append] at each
  have value : digitsValueFrom (digitsValueFrom 0 whole) fraction = d.coefficient := by
    rw [← digitsValueFrom_append, ← text]
    exact digitsValue_padZeros _ _
  have small := d.coefficient_lt
  have smaller : digitsValueFrom 0 whole < limit :=
    Nat.lt_of_le_of_lt (le_digitsValueFrom _ fraction) (value ▸ small)
  rw [written]
  split
  · rename_i none
    obtain rfl : fraction = [] := List.length_eq_zero_iff.1 (length.trans none)
    rw [← List.append_nil whole, readFrom?_digits negative _ [] each.1 smaller (fun _ => rfl) (fun seen => by cases seen)]
    have : whole.isEmpty = false := by simpa using present
    have value : digitsValueFrom 0 whole = d.coefficient := value
    simp [readFrom?, this, value, none]
  · rw [readFrom?_digits negative _ _ each.1 smaller (fun _ => rfl) (fun seen => by cases seen)]
    have point : readFrom? negative
          ⟨digitsValueFrom 0 whole, 0, false, false || !whole.isEmpty⟩ ('.' :: fraction) =
        readFrom? negative ⟨digitsValueFrom 0 whole, 0, true, !whole.isEmpty⟩
          (fraction ++ []) := by
      rw [List.append_nil, readFrom?]
      rfl
    refine point.trans ?_
    rw [readFrom?_digits negative _ [] each.2 (by rwa [value]) (fun unseen => by cases unseen)
      (fun _ => by have := d.places_le; simpa [length, maxPlaces] using this)]
    have : whole.isEmpty = false := by simpa using present
    simp [readFrom?, this, value, length]

theorem of_mem_magnitudeChars {d : Decimal} {c : Char} (member : c ∈ d.magnitudeChars) :
    isDigit c = true ∨ c = '.' := by
  obtain ⟨whole, fraction, text, -, -, written⟩ := d.magnitudeChars_eq
  have each : ∀ c ∈ whole ++ fraction, isDigit c = true := fun c member =>
    isDigit_of_mem_padZeros (text ▸ member)
  rw [List.forall_mem_append] at each
  rw [written] at member
  split at member
  · exact .inl (each.1 c member)
  · rcases List.mem_append.1 member with front | back
    · exact .inl (each.1 c front)
    · rcases List.mem_cons.1 back with point | behind
      · exact .inr point
      · exact .inl (each.2 c behind)

theorem toList_toText (d : Decimal) :
    d.toText.toList = if d.negative then '-' :: d.magnitudeChars else d.magnitudeChars := by
  rw [toText, String.toList_ofList]

/-- An integer is written as the decimal without places. -/
theorem toText_ofInt (i : Int64) : (ofInt i).toText = intText i.toInt := by
  have unpadded : (ofInt i).magnitudeChars = digits i.toInt.natAbs := by
    have present := List.length_pos_iff.2 (digits_ne_nil i.toInt.natAbs)
    change padZeros 1 (digits i.toInt.natAbs) = _
    rw [padZeros, Nat.sub_eq_zero_of_le present]
    rfl
  rw [← String.toList_inj, toList_toText, toList_intText, unpadded]
  change (if decide (i.toInt < 0) = true then _ else _) = _
  simp only [decide_eq_true_eq]

theorem of_mem_toText {d : Decimal} {c : Char} (member : c ∈ d.toText.toList) :
    isDigit c = true ∨ c = '.' ∨ c = '-' := by
  rw [toList_toText] at member
  split at member
  · rcases List.mem_cons.1 member with sign | member
    · exact .inr (.inr sign)
    · exact (of_mem_magnitudeChars member).imp_right .inl
  · exact (of_mem_magnitudeChars member).imp_right .inl

theorem unblank_toText (d : Decimal) : ∀ c ∈ d.toText.toList, Text.isBlank c = false := by
  intro c member
  rcases of_mem_toText member with digit | rfl | rfl
  · exact Text.isBlank_of_isDigit digit
  · rfl
  · rfl

theorem readPlain?_unsigned {text : List Char} (unsigned : ∀ c ∈ text.head?, c ≠ '-' ∧ c ≠ '+') :
    readPlain? text = readFrom? false ⟨0, 0, false, false⟩ text := by
  unfold readPlain?
  split
  · exact absurd rfl (unsigned _ rfl).1
  · exact absurd rfl (unsigned _ rfl).2
  · rfl

/-- A decimal is read with its digits and its places. -/
theorem read?_toText (d : Decimal) :
    read? d.toText.toList = make? d.negative d.coefficient d.places := by
  have plain : Text.cutAt? (fun c => c == 'e' || c == 'E') d.toText.toList = none := by
    refine Text.cutAt?_eq_none fun c member => ?_
    rcases of_mem_toText member with digit | rfl | rfl
    · rw [Bool.or_eq_false_iff, beq_eq_false_iff_ne, beq_eq_false_iff_ne]
      constructor <;> rintro rfl <;> cases digit
    · rfl
    · rfl
  rw [read?, plain]
  dsimp only
  rw [toList_toText]
  cases d.negative with
  | true => exact readFrom?_magnitude d true
  | false =>
      refine (readPlain?_unsigned fun c first => ?_).trans (readFrom?_magnitude d false)
      rcases of_mem_magnitudeChars (List.mem_of_mem_head? first) with digit | rfl
      · constructor <;> rintro rfl <;> cases digit
      · decide

/-- What is read has the same digits and places; only a zero loses its sign. -/
theorem exists_read?_signed (d : Decimal) :
    ∃ d', read? d.toText.toList = some d' ∧ d'.signed = d.signed ∧ d'.places = d.places := by
  have fits : d.coefficient < limit ∧ d.places ≤ 28 := ⟨d.coefficient_lt, d.places_le⟩
  refine ⟨⟨d.negative && d.coefficient != 0, d.coefficient, d.places, fits.1, fits.2⟩, ?_, ?_, rfl⟩
  · rw [read?_toText, make?, fitting?, dif_pos fits]
  · unfold signed
    by_cases zero : d.coefficient = 0
    · simp [zero]
    · simp [zero]

/-- What is read is the same number. -/
theorem exists_read?_toText (d : Decimal) :
    ∃ d', read? d.toText.toList = some d' ∧ d'.compare d = .eq := by
  obtain ⟨d', found, signed, places⟩ := d.exists_read?_signed
  exact ⟨d', found, by simp [compare, align, signed, places]⟩

end Decimal

end Number

end RowQuery
