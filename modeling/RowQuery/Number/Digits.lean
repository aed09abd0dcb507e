/-!
# Decimal digits and integers of 64 bits

Writing and reading natural numbers in base ten.  `digitsValue` is the number
that a list of digits stands for; `digitsValue_digits` says that writing keeps
it.  Then the limits of natural numbers in machine words, and passing from
unbounded integers to 64-bit ones, which fails out of range, and from them to
doubles.
-/

namespace RowQuery.Number

/-- The character of a number below ten. -/
def digitChar (n : Nat) : Char :=
  Char.ofNat (n + 48)

/-- The number that a digit stands for. -/
def digitOf (c : Char) : Nat :=
  c.toNat - 48

def isDigit (c : Char) : Bool :=
  48 ≤ c.toNat && c.toNat ≤ 57

/-- The digits of a number, most significant first, without leading zeros. -/
def digits (n : Nat) : List Char :=
  if _ : n < 10 then [digitChar n]
  else digits (n / 10) ++ [digitChar (n % 10)]
termination_by n
decreasing_by omega

/-- The text of a natural number. -/
def natText (n : Nat) : String :=
  String.ofList (digits n)

/-- The text of an integer, with a minus sign if it is negative. -/
def intText (i : Int) : String :=
  if i < 0 then "-" ++ natText i.natAbs else natText i.natAbs

/-- Fill up with zeros on the left to at least `width` characters. -/
def padZeros (width : Nat) (text : List Char) : List Char :=
  List.replicate (width - text.length) '0' ++ text

/-- A number in at least `width` digits. -/
def paddedText (width n : Nat) : String :=
  String.ofList (padZeros width (digits n))

/-- The number that a list of digits stands for, read after `start`. -/
def digitsValueFrom (start : Nat) (text : List Char) : Nat :=
  text.foldl (fun value c => value * 10 + digitOf c) start

/-- The number that a list of digits stands for. -/
def digitsValue (text : List Char) : Nat :=
  digitsValueFrom 0 text

/-- Read a nonempty list of digits. -/
def readNat? (text : List Char) : Option Nat :=
  if text.isEmpty || !text.all isDigit then none else some (digitsValue text)

/-- Read an optionally signed nonempty list of digits. -/
def readInt? : List Char → Option Int
  | '-' :: rest => (readNat? rest).map fun n => -(n : Int)
  | '+' :: rest => (readNat? rest).map fun n => (n : Int)
  | text => (readNat? text).map fun n => (n : Int)

/-- Read an optionally plus-signed number that is at most `limit`. -/
def readBounded? (limit : Nat) (text : List Char) : Option Nat :=
  match text with
  | '+' :: rest => (readNat? rest).filter (· ≤ limit)
  | _ => (readNat? text).filter (· ≤ limit)

/-- The number of digits of a positive number; zero has none. -/
def digitCount (n : Nat) : Nat :=
  if _ : n = 0 then 0 else digitCount (n / 10) + 1
termination_by n
decreasing_by omega

theorem digitOf_digitChar {n : Nat} (small : n < 10) :
    digitOf (digitChar n) = n := by
  have : ∀ m : Fin 10, digitOf (digitChar m.val) = m.val := by decide
  exact this ⟨n, small⟩

theorem isDigit_digitChar {n : Nat} (small : n < 10) : isDigit (digitChar n) = true := by
  have : ∀ m : Fin 10, isDigit (digitChar m.val) = true := by decide
  exact this ⟨n, small⟩

theorem isDigit_of_mem_digits (n : Nat) : ∀ c ∈ digits n, isDigit c = true := by
  induction n using Nat.strongRecOn with
  | ind n ih =>
      rw [digits]
      split
      · rename_i small
        simpa using isDigit_digitChar small
      · rename_i large
        intro c member
        rcases List.mem_append.1 member with front | last
        · exact ih (n / 10) (by omega) c front
        · obtain rfl := List.mem_singleton.1 last
          exact isDigit_digitChar (Nat.mod_lt n (by decide))

theorem digits_ne_nil (n : Nat) : digits n ≠ [] := by
  rw [digits]
  split <;> simp

theorem digitsValue_digits (n : Nat) : digitsValue (digits n) = n := by
  induction n using Nat.strongRecOn with
  | ind n ih =>
      rw [digits]
      split
      · rename_i small
        simp [digitsValue, digitsValueFrom, digitOf_digitChar small]
      · rename_i large
        have step := ih (n / 10) (by omega)
        simp only [digitsValue, digitsValueFrom] at step
        simp only [digitsValue, digitsValueFrom, List.foldl_append, step,
          List.foldl_cons, List.foldl_nil,
          digitOf_digitChar (Nat.mod_lt n (by decide : 10 > 0))]
        omega

/-! ## Integers of 64 bits -/

/-- The largest natural number of 32 bits. -/
def halfMax : Nat := 0xFFFFFFFF

/-- The largest natural number of 64 bits. -/
def wordMax : Nat := 0xFFFFFFFFFFFFFFFF

/-- The 64-bit integer of this value, if it fits. -/
def word? (i : Int) : Option Int64 :=
  if Int64.minValue.toInt ≤ i ∧ i ≤ Int64.maxValue.toInt then some (Int64.ofInt i)
  else none

/-- The double nearest to a natural number. -/
def natToFloat (n : Nat) : Float :=
  Float.ofScientific n false 0

/-- The double nearest to a 64-bit integer. -/
def wordToFloat (i : Int64) : Float :=
  if i.toInt < 0 then -(natToFloat i.toInt.natAbs) else natToFloat i.toInt.natAbs

theorem word?_eq_some_iff {i : Int} {w : Int64} : word? i = some w ↔ w.toInt = i := by
  unfold word?
  constructor
  · intro found
    split at found
    · rename_i fits
      obtain rfl := Option.some.inj found
      have low : -2 ^ 63 ≤ i := fits.1
      have high : i ≤ 2 ^ 63 - 1 := fits.2
      exact Int64.toInt_ofInt_of_le low (by omega)
    · cases found
  · rintro rfl
    have low := w.le_toInt
    have high := w.toInt_lt
    have fits : Int64.minValue.toInt ≤ w.toInt ∧ w.toInt ≤ Int64.maxValue.toInt := by
      constructor
      · exact low
      · have : Int64.maxValue.toInt = 2 ^ 63 - 1 := by decide
        omega
    rw [if_pos fits, Int64.ofInt_toInt]

end RowQuery.Number
