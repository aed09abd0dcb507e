import Mathlib.Algebra.Group.Nat.Even
import RowQuery.Codec
import RowQuery.Dialect.Ansi

/-!
# Bytes in hexadecimal digits

Bytes are read from two digits each.  The first of the two may also be a plus sign, as it may for
any number that is read, and then counts as a zero.  So what is read are texts that are made of such
pairs.  Of these the ones without a plus sign are the even numbers of digits, and encoding what is
read gives the text in lower case; the others are read although they are not made of digits.
-/

namespace RowQuery

namespace Sql

/-- The hexadecimal digits of either case. -/
def hexAlphabet : List Char :=
  ['0', '1', '2', '3', '4', '5', '6', '7', '8', '9', 'a', 'b', 'c', 'd', 'e', 'f',
    'A', 'B', 'C', 'D', 'E', 'F']

/-- An even number of hexadecimal digits. -/
def IsHexText (text : List Char) : Prop :=
  Even text.length ∧ ∀ c ∈ text, c ∈ hexAlphabet

/-- Pairs of characters, each a digit behind another one or behind a plus sign. -/
inductive HexPairs : List Char → Prop
  | nil : HexPairs []
  | pair {high low : Char} {rest : List Char} (front : high ∈ hexAlphabet ∨ high = '+')
      (back : low ∈ hexAlphabet) (others : HexPairs rest) : HexPairs (high :: low :: rest)

/-- The lower-case digit that a character is read as. -/
def digitMeant (c : Char) : Char :=
  if c = '+' then '0' else c.toLower

/-! ## Digits -/

theorem exists_hexValue? {c : Char} (digit : c ∈ hexAlphabet) :
    ∃ n < 16, hexValue? c = some n ∧ Text.hexDigit n = c.toLower := by
  -- As a quantifier this would be decided by going through all characters there are.
  have each : hexAlphabet.all (fun c => (hexValue? c).any fun n =>
      n < 16 && Text.hexDigit n == c.toLower) = true := by
    decide
  have read := List.all_eq_true.1 each c digit
  obtain ⟨n, found, small, same⟩ : ∃ n, hexValue? c = some n ∧ n < 16 ∧
      Text.hexDigit n = c.toLower := by
    simpa [Option.any_eq_true] using read
  exact ⟨n, small, found, same⟩

theorem mem_hexAlphabet_of_hexValue? {c : Char} {n : Nat} (found : hexValue? c = some n) :
    c ∈ hexAlphabet := by
  have each : ∀ point : Fin 128,
      hexValue? (Char.ofNat point) = none ∨ Char.ofNat point ∈ hexAlphabet := by
    decide
  have small : c.toNat < 128 := by
    unfold hexValue? Number.isDigit at found
    grind
  simpa [found] using each ⟨c.toNat, small⟩

theorem hexValue?_hexDigit {n : Nat} (small : n < 16) :
    hexValue? (Text.hexDigit n) = some n ∧ Text.hexDigit n ≠ '+' := by
  have each : ∀ n : Fin 16, hexValue? (Text.hexDigit n) = some n.val ∧ Text.hexDigit n ≠ '+' := by
    decide
  exact each ⟨n, small⟩

theorem ne_plus_of_mem {c : Char} (digit : c ∈ hexAlphabet) : c ≠ '+' := by
  rintro rfl
  revert digit
  decide

/-! ## Pairs -/

theorem hexByte_ofNat {high low : Nat} (front : high < 16) (back : low < 16) :
    hexByte (UInt8.ofNat (high * 16 + low)) = [Text.hexDigit high, Text.hexDigit low] := by
  have whole : (UInt8.ofNat (high * 16 + low)).toNat = high * 16 + low :=
    UInt8.toNat_ofNat_of_lt' (by simp only [UInt8.size]; omega)
  have quotient : (high * 16 + low) / 16 = high := by omega
  have remainder : (high * 16 + low) % 16 = low := by omega
  rw [hexByte, whole, quotient, remainder]

/-- A pair is read as a byte, which is encoded by the digits that are meant. -/
theorem exists_hexPair? {high low : Char} (front : high ∈ hexAlphabet ∨ high = '+')
    (back : low ∈ hexAlphabet) :
    ∃ byte, hexPair? high low = some byte ∧ hexByte byte = [digitMeant high, digitMeant low] := by
  obtain ⟨n, small, found, digit⟩ := exists_hexValue? back
  have last : digitMeant low = Text.hexDigit n := by
    rw [digitMeant, if_neg (ne_plus_of_mem back), digit]
  rcases front with front | rfl
  · obtain ⟨m, bound, known, first⟩ := exists_hexValue? front
    refine ⟨UInt8.ofNat (m * 16 + n), ?_, ?_⟩
    · simp [hexPair?, found, known, ne_plus_of_mem front]
    · rw [hexByte_ofNat bound small, last, digitMeant, if_neg (ne_plus_of_mem front), first]
  · refine ⟨UInt8.ofNat n, ?_, ?_⟩
    · simp [hexPair?, found]
    · have alone := hexByte_ofNat (by decide : 0 < 16) small
      rw [Nat.zero_mul, Nat.zero_add] at alone
      rw [alone, last]
      rfl

theorem pair_of_hexPair? {high low : Char} {byte : UInt8} (found : hexPair? high low = some byte) :
    (high ∈ hexAlphabet ∨ high = '+') ∧ low ∈ hexAlphabet := by
  rw [hexPair?, Option.bind_eq_bind, Option.bind_eq_some_iff] at found
  obtain ⟨n, back, found⟩ := found
  refine ⟨?_, mem_hexAlphabet_of_hexValue? back⟩
  split at found
  · rename_i plus
    exact .inr plus
  · obtain ⟨m, front, -⟩ := Option.bind_eq_some_iff.1 found
    exact .inl (mem_hexAlphabet_of_hexValue? front)

/-! ## Bytes -/

theorem hexDecode?_hexEncode (bytes : List UInt8) : hexDecode? (hexEncode bytes) = some bytes := by
  induction bytes with
  | nil => rfl
  | cons byte bytes ih =>
      have inByte := byte.toNat_lt
      have high : byte.toNat / 16 < 16 := by omega
      have low : byte.toNat % 16 < 16 := by omega
      have value : byte.toNat / 16 * 16 + byte.toNat % 16 = byte.toNat := by omega
      have written : hexEncode (byte :: bytes) = Text.hexDigit (byte.toNat / 16) ::
          Text.hexDigit (byte.toNat % 16) :: hexEncode bytes := rfl
      have pair : hexPair? (Text.hexDigit (byte.toNat / 16)) (Text.hexDigit (byte.toNat % 16)) =
          some byte := by
        rw [hexPair?, (hexValue?_hexDigit high).1, (hexValue?_hexDigit low).1]
        exact (if_neg (hexValue?_hexDigit high).2).trans
          (congrArg some (by rw [value, UInt8.ofNat_toNat]))
      rw [written, hexDecode?, pair, ih]
      rfl

theorem hexEncode_injective {a b : List UInt8} (same : hexEncode a = hexEncode b) : a = b := by
  have read := hexDecode?_hexEncode a
  rw [same, hexDecode?_hexEncode] at read
  exact (Option.some.inj read).symm

/-! ## Texts -/

theorem exists_hexDecode? {text : List Char} (pairs : HexPairs text) :
    ∃ bytes, hexDecode? text = some bytes ∧ hexEncode bytes = text.map digitMeant := by
  induction pairs with
  | nil => exact ⟨[], rfl, rfl⟩
  | pair front back _ ih =>
      obtain ⟨byte, first, digits⟩ := exists_hexPair? front back
      obtain ⟨bytes, others, written⟩ := ih
      refine ⟨byte :: bytes, ?_, ?_⟩
      · simp [hexDecode?, first, others]
      · rw [hexEncode, List.flatMap_cons, digits]
        change _ ++ hexEncode bytes = _
        rw [written]
        rfl

theorem hexPairs_of_hexDecode? {text : List Char} {bytes : List UInt8}
    (found : hexDecode? text = some bytes) : HexPairs text := by
  fun_induction hexDecode? text generalizing bytes with
  | case1 => exact .nil
  | case2 => cases found
  | case3 high low rest ih =>
      rw [Option.bind_eq_bind, Option.bind_eq_some_iff] at found
      obtain ⟨byte, first, found⟩ := found
      obtain ⟨bytes, others, -⟩ := Option.bind_eq_some_iff.1 found
      obtain ⟨front, back⟩ := pair_of_hexPair? first
      exact .pair front back (ih others)

/-- The texts that are read are the pairs, and what is read is encoded by the digits that are
meant. -/
theorem hexDecode?_eq_some_iff {text : List Char} {bytes : List UInt8} :
    hexDecode? text = some bytes ↔ HexPairs text ∧ hexEncode bytes = text.map digitMeant := by
  constructor
  · intro found
    have pairs := hexPairs_of_hexDecode? found
    obtain ⟨others, known, written⟩ := exists_hexDecode? pairs
    obtain rfl : bytes = others := Option.some.inj (found.symm.trans known)
    exact ⟨pairs, written⟩
  · rintro ⟨pairs, written⟩
    obtain ⟨others, known, same⟩ := exists_hexDecode? pairs
    rw [known, hexEncode_injective (written.trans same.symm)]

theorem isSome_hexDecode? {text : List Char} : (hexDecode? text).isSome ↔ HexPairs text := by
  rw [Option.isSome_iff_exists]
  constructor
  · rintro ⟨bytes, found⟩
    exact hexPairs_of_hexDecode? found
  · intro pairs
    obtain ⟨bytes, found, -⟩ := exists_hexDecode? pairs
    exact ⟨bytes, found⟩

theorem hexPairs_of_digits : ∀ {text : List Char}, IsHexText text → HexPairs text
  | [], _ => .nil
  | [_], ⟨even, _⟩ => absurd even (by simp)
  | high :: low :: rest, ⟨even, digits⟩ => by
      simp only [List.forall_mem_cons] at digits
      have shorter : Even rest.length := by
        rw [List.length_cons, List.length_cons, Nat.even_iff] at even
        rw [Nat.even_iff]
        omega
      exact .pair (.inl digits.1) digits.2.1 (hexPairs_of_digits ⟨shorter, digits.2.2⟩)

/-- An even number of digits are pairs without a plus sign. -/
theorem isHexText_iff {text : List Char} : IsHexText text ↔ HexPairs text ∧ '+' ∉ text := by
  constructor
  · intro hex
    exact ⟨hexPairs_of_digits hex, fun plus => ne_plus_of_mem (hex.2 _ plus) rfl⟩
  · rintro ⟨pairs, unsigned⟩
    induction pairs with
    | nil => exact ⟨.zero, nofun⟩
    | pair front back _ ih =>
        simp only [List.mem_cons, not_or] at unsigned
        obtain ⟨even, digits⟩ := ih unsigned.2.2
        refine ⟨?_, ?_⟩
        · rw [List.length_cons, List.length_cons, Nat.even_iff]
          rw [Nat.even_iff] at even
          omega
        · simp only [List.forall_mem_cons]
          exact ⟨front.resolve_right (Ne.symm unsigned.1), back, digits⟩

theorem map_digitMeant {text : List Char} (unsigned : '+' ∉ text) :
    text.map digitMeant = text.map Char.toLower := by
  refine List.map_congr_left fun c member => if_neg ?_
  rintro rfl
  exact unsigned member

/-- Where the digits that are meant are those of the text itself there is no plus sign. -/
theorem unsigned_of_map_eq {text : List Char}
    (same : text.map digitMeant = text.map Char.toLower) : '+' ∉ text := by
  intro plus
  have differ : digitMeant '+' = Char.toLower '+' := List.map_inj_left.1 same _ plus
  revert differ
  decide

/-- A text is read so that encoding gives it back in lower case exactly if it is an even number of
digits. -/
theorem isHexText_iff_exists {text : List Char} :
    IsHexText text ↔
      ∃ bytes, hexDecode? text = some bytes ∧ hexEncode bytes = text.map Char.toLower := by
  rw [isHexText_iff]
  constructor
  · rintro ⟨pairs, unsigned⟩
    obtain ⟨bytes, found, written⟩ := exists_hexDecode? pairs
    exact ⟨bytes, found, written.trans (map_digitMeant unsigned)⟩
  · rintro ⟨bytes, found, lower⟩
    obtain ⟨pairs, written⟩ := hexDecode?_eq_some_iff.1 found
    exact ⟨pairs, unsigned_of_map_eq (written.symm.trans lower)⟩

end Sql

namespace Codec

open Sql

/-- A cell of bytes behind a marker. -/
def markedCell (text : List Char) : Cell :=
  .text (String.ofList ('\\' :: 'x' :: text))

theorem decode_markedCell (type : ColumnType) (text : List Char) :
    Codec.bytes.decode type (markedCell text) =
      orFault (decodeFault (markedCell text) type .bytes) ((hexDecode? text).map .bytes) := by
  simp [decode, decode?, markedCell, readBytes?, Text.dropFront?, kind]

/-- Bytes that are encoded are decoded again.  A text is decoded exactly if it is made of pairs, to
the bytes whose encoding has the digits that are meant.  It is decoded to bytes whose encoding is
the text in lower case exactly if it is an even number of digits; so the texts that are decoded are
these unless there is a plus sign among the pairs.  From a cell behind a marker the same texts are
decoded, and all others are a fault. -/
theorem hexadecimal_exact_iff (type : ColumnType) (bytes : List UInt8) (text : List Char) :
    hexDecode? (hexEncode bytes) = some bytes ∧
      (hexDecode? text = some bytes ↔
        HexPairs text ∧ hexEncode bytes = text.map digitMeant) ∧
      (IsHexText text ↔
        ∃ found, hexDecode? text = some found ∧ hexEncode found = text.map Char.toLower) ∧
      (((hexDecode? text).isSome ↔ IsHexText text) ↔ ¬ (HexPairs text ∧ '+' ∈ text)) ∧
      (Codec.bytes.decode type (markedCell text) = .ok (.bytes bytes) ↔
        hexDecode? text = some bytes) ∧
      (Codec.bytes.decode type (markedCell text) =
          .error (decodeFault (markedCell text) type .bytes) ↔
        ¬ HexPairs text) := by
  refine ⟨hexDecode?_hexEncode bytes, hexDecode?_eq_some_iff, isHexText_iff_exists, ?_, ?_, ?_⟩
  · rw [isSome_hexDecode?, isHexText_iff]
    by_cases plus : '+' ∈ text <;> simp [plus]
  · rw [decode_markedCell]
    cases hexDecode? text <;> simp [orFault]
  · rw [decode_markedCell, ← isSome_hexDecode?]
    cases hexDecode? text <;> simp [orFault]

/-- A plus sign and a digit behind the marker are decoded to one byte. -/
theorem plus_is_decoded :
    HexPairs ['+', 'f'] ∧ '+' ∈ ['+', 'f'] ∧
      Codec.bytes.decode (ColumnType.varyingOf "VARBINARY" .binary 255) (markedCell ['+', 'f']) =
        .ok (.bytes [15]) ∧
      hexEncode [15] = ['0', 'f'] ∧ ¬ IsHexText ['+', 'f'] := by
  have pairs : HexPairs ['+', 'f'] := .pair (.inr rfl) (by decide) .nil
  have written : hexEncode [15] = ['+', 'f'].map digitMeant := by decide
  obtain ⟨-, decoded, -, -, accepted, -⟩ :=
    hexadecimal_exact_iff (ColumnType.varyingOf "VARBINARY" .binary 255) [15] ['+', 'f']
  exact ⟨pairs, by decide, accepted.2 (decoded.2 ⟨pairs, written⟩), written,
    fun hex => ne_plus_of_mem (hex.2 '+' (by decide)) rfl⟩

end Codec

end RowQuery
