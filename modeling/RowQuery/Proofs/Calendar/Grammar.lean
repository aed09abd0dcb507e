import RowQuery.Proofs.Calendar.Component

/-!
# What is read as an interval

The grammar of interval texts: a decimal number of seconds, or a sequence of amounts with units and
of clocks.  Everything that is read is in this grammar, apart from a text without any words, a clock
with more than one sign or with a sign inside, and a unit with its ending doubled.  Numbers with
more digits than a decimal has room for are not read to their end, so anything may follow there.
-/

namespace RowQuery.Calendar

open RowQuery.Number

/-! ## The grammar -/

/-- Digits with a point among them, unless there has been one, and underscores behind digits. -/
inductive IsNumber : (seenPoint seenDigit : Bool) → List Char → Prop
  | nil {seenPoint : Bool} : IsNumber seenPoint true []
  | digit {seenPoint seenDigit : Bool} {c : Char} {rest : List Char} (digit : isDigit c = true)
      (others : IsNumber seenPoint true rest) : IsNumber seenPoint seenDigit (c :: rest)
  | point {seenDigit : Bool} {rest : List Char} (others : IsNumber true seenDigit rest) :
      IsNumber false seenDigit ('.' :: rest)
  | underscore {seenPoint : Bool} {rest : List Char} (others : IsNumber seenPoint true rest) :
      IsNumber seenPoint true ('_' :: rest)

/-- A number without a sign, which may have a power of ten behind it. -/
inductive IsUnsigned : List Char → Prop
  | plain {number : List Char} (isNumber : IsNumber false false number) : IsUnsigned number
  | scientific {number : List Char} {letter : Char} (isNumber : IsNumber false false number)
      (exponent : letter = 'e' ∨ letter = 'E') (sign : Sign) (power : DigitRun) :
      IsUnsigned (number ++ letter :: (sign.chars ++ power.chars))

/-- A number with at most one sign. -/
def IsDecimal (text : List Char) : Prop :=
  ∃ (sign : Sign) (number : List Char), IsUnsigned number ∧ text = sign.chars ++ number

/-- Hours and minutes, and perhaps seconds, with at most one sign in front. -/
inductive IsClock : List Char → Prop
  | short (sign : Sign) (hours minutes : DigitRun) :
      IsClock (sign.chars ++ (hours.chars ++ ':' :: minutes.chars))
  | long (sign : Sign) (hours minutes : DigitRun) {seconds : List Char}
      (decimal : IsUnsigned seconds) :
      IsClock (sign.chars ++ (hours.chars ++ ':' :: (minutes.chars ++ ':' :: seconds)))

/-- A name of a unit of time. -/
def IsUnit (word : List Char) : Prop :=
  ∃ unit : TimeUnit, word.map Char.toLower ∈ unit.spellings

/-- A sequence of clocks, and of amounts each with a unit. -/
inductive Parts (Amount Unit Clock : List Char → Prop) : List (List Char) → Prop
  | nil : Parts Amount Unit Clock []
  | clock {word : List Char} {rest : List (List Char)} (clock : Clock word)
      (others : Parts Amount Unit Clock rest) : Parts Amount Unit Clock (word :: rest)
  | amount {word next : List Char} {rest : List (List Char)} (amount : Amount word)
      (unit : Unit next) (others : Parts Amount Unit Clock rest) :
      Parts Amount Unit Clock (word :: next :: rest)

/-- The text of an interval: a decimal, or a nonempty sequence of parts with blanks between them. -/
def WellFormed (text : String) : Prop :=
  IsDecimal (Text.trimChars text.toList) ∨
    ∃ parts, parts ≠ [] ∧ Text.Spaced parts text.toList ∧ Parts IsDecimal IsUnit IsClock parts

/-! ## What is read beyond it -/

/-- A sign stands only at the very front, or behind the letter of a power of ten. -/
def SignsApart (word : List Char) : Prop :=
  word.IsChain fun a b => b = '+' ∨ b = '-' → a = 'e' ∨ a = 'E'

/-- The plural or the comma of a unit is written twice. -/
def DoubledEnding (word : List Char) : Prop :=
  ∃ ending ∈ ["ss", "ss,", ",,"], ending.toList <:+ word.map Char.toLower

/-- A number for which there is no room: a decimal is full behind the point before the next
character. -/
def Overfull (text : List Char) : Prop :=
  ∃ whole fraction next rest, text = whole ++ '.' :: (fraction ++ next :: rest) ∧
    (∀ c ∈ whole ++ fraction, isDigit c = true ∨ c = '_') ∧
    (isDigit next = true ∨ next = '_' ∨ next = '.') ∧
    (28 ≤ (fraction.filter isDigit).length ∨
      isDigit next = true ∧
        Decimal.limit ≤ digitsValue ((whole ++ fraction).filter isDigit ++ [next]))

/-- There are no words, or one has a sign inside or its ending doubled. -/
def Slipped (text : String) : Prop :=
  Text.words text.toList = [] ∨
    ∃ word ∈ Text.words text.toList, ¬ SignsApart word ∨ DoubledEnding word

/-- A word has a number in it for which there is no room. -/
def Crowded (text : String) : Prop :=
  ∃ word ∈ Text.words text.toList, ∃ number, number <:+ word ∧ Overfull number

/-! ## Numbers -/

/-- The character at which a number is ended early belongs to the number. -/
theorem of_roundOff? {negative : Bool} {coefficient places : ℕ} {c : Char} {d : Decimal}
    (read : Decimal.roundOff? negative coefficient places c = some d) :
    isDigit c = true ∨ c = '_' ∨ c = '.' := by
  unfold Decimal.roundOff? at read
  split at read
  · rename_i digit
    exact .inl digit
  · split at read
    · rename_i mark
      exact .inr (by simpa using mark)
    · cases read

/-- What is read behind the point is a number, unless the decimal is full before it ends. -/
theorem of_readFrom?_fraction {negative : Bool} {p : Decimal.Progress} (seen : p.seenPoint = true)
    {text : List Char} {d : Decimal} (read : Decimal.readFrom? negative p text = some d) :
    IsNumber true p.seenDigit text ∨
      ∃ fraction next rest, text = fraction ++ next :: rest ∧
        (∀ c ∈ fraction, isDigit c = true ∨ c = '_') ∧
        (isDigit next = true ∨ next = '_' ∨ next = '.') ∧
        (28 ≤ p.places + (fraction.filter isDigit).length ∨
          isDigit next = true ∧
            Decimal.limit ≤ digitsValueFrom p.coefficient (fraction.filter isDigit ++ [next])) := by
  induction text generalizing p with
  | nil =>
      rw [Decimal.readFrom?] at read
      split at read
      · rename_i digit
        rw [digit]
        exact .inl .nil
      · cases read
  | cons c rest ih =>
      rw [Decimal.readFrom?] at read
      split at read
      · rename_i full
        simp only [seen, Bool.true_and, decide_eq_true_eq] at full
        exact .inr ⟨[], c, rest, rfl, by simp, of_roundOff? read, .inl full⟩
      split at read
      · rename_i digit
        simp only [seen] at read
        split at read
        · rcases ih (p := ⟨_, p.places + 1, true, true⟩) rfl read with number | full
          · exact .inl (.digit digit number)
          · obtain ⟨fraction, next, rest, rfl, each, last, full⟩ := full
            refine .inr ⟨c :: fraction, next, rest, rfl,
              List.forall_mem_cons.mpr ⟨.inl digit, each⟩, last, ?_⟩
            rw [List.filter_cons_of_pos digit, List.length_cons]
            exact full.imp_left fun (places : 28 ≤ p.places + 1 + _) => by omega
        · rename_i large
          exact .inr ⟨[], c, rest, rfl, by simp, .inl digit, .inr ⟨digit, Nat.not_lt.mp large⟩⟩
      · rename_i noDigit
        simp only [seen, Bool.not_true, Bool.and_false, Bool.false_eq_true, if_false] at read
        split at read
        · rename_i underscore
          obtain ⟨rfl, digit⟩ : c = '_' ∧ p.seenDigit = true := by simpa using underscore
          rcases ih seen read with number | full
          · rw [digit] at number ⊢
            exact .inl (.underscore number)
          · obtain ⟨fraction, next, rest, rfl, each, last, full⟩ := full
            refine .inr ⟨'_' :: fraction, next, rest, rfl,
              List.forall_mem_cons.mpr ⟨.inr rfl, each⟩, last, ?_⟩
            rwa [List.filter_cons_of_neg (by decide)]
        · cases read

/-- What is read before the point is a number, unless the decimal is full before it ends. -/
theorem of_readFrom?_whole {negative : Bool} {p : Decimal.Progress}
    (unseen : p.seenPoint = false ∧ p.places = 0) {text : List Char} {d : Decimal}
    (read : Decimal.readFrom? negative p text = some d) :
    IsNumber false p.seenDigit text ∨
      ∃ whole fraction next rest, text = whole ++ '.' :: (fraction ++ next :: rest) ∧
        (∀ c ∈ whole ++ fraction, isDigit c = true ∨ c = '_') ∧
        (isDigit next = true ∨ next = '_' ∨ next = '.') ∧
        (28 ≤ (fraction.filter isDigit).length ∨
          isDigit next = true ∧ Decimal.limit ≤
            digitsValueFrom p.coefficient ((whole ++ fraction).filter isDigit ++ [next])) := by
  induction text generalizing p with
  | nil =>
      rw [Decimal.readFrom?] at read
      split at read
      · rename_i digit
        rw [digit]
        exact .inl .nil
      · cases read
  | cons c rest ih =>
      rw [Decimal.readFrom?] at read
      simp only [unseen.1, Bool.false_and, Bool.false_eq_true, if_false, Bool.not_false,
        Bool.and_true, decide_eq_true_eq] at read
      split at read
      · rename_i digit
        split at read
        · rcases ih (p := ⟨_, 0, false, true⟩) ⟨rfl, rfl⟩ read with number | full
          · exact .inl (.digit digit number)
          · obtain ⟨whole, fraction, next, rest, rfl, each, last, full⟩ := full
            refine .inr ⟨c :: whole, fraction, next, rest, rfl,
              List.forall_mem_cons.mpr ⟨.inl digit, each⟩, last, ?_⟩
            rwa [List.cons_append, List.filter_cons_of_pos digit]
        · cases read
      · split at read
        · rename_i point
          subst point
          rcases of_readFrom?_fraction (p := { p with seenPoint := true }) rfl read with
            number | full
          · exact .inl (.point number)
          · obtain ⟨fraction, next, rest, rfl, each, last, full⟩ := full
            refine .inr ⟨[], fraction, next, rest, rfl, each, last, ?_⟩
            simpa [unseen.2] using full
        · split at read
          · rename_i underscore
            obtain ⟨rfl, digit⟩ : c = '_' ∧ p.seenDigit = true := by simpa using underscore
            rcases ih unseen read with number | full
            · rw [digit] at number ⊢
              exact .inl (.underscore number)
            · obtain ⟨whole, fraction, next, rest, rfl, each, last, full⟩ := full
              refine .inr ⟨'_' :: whole, fraction, next, rest, rfl,
                List.forall_mem_cons.mpr ⟨.inr rfl, each⟩, last, ?_⟩
              rwa [List.cons_append, List.filter_cons_of_neg (by decide)]
          · cases read

/-- What is read without an exponent is a number behind one sign, or overfull. -/
theorem of_readPlain? {text : List Char} {d : Decimal} (read : Decimal.readPlain? text = some d) :
    ∃ (sign : Sign) (number : List Char), text = sign.chars ++ number ∧
      (IsNumber false false number ∨ Overfull number) := by
  have start {negative : Bool} {number : List Char}
      (read : Decimal.readFrom? negative ⟨0, 0, false, false⟩ number = some d) :
      IsNumber false false number ∨ Overfull number := of_readFrom?_whole ⟨rfl, rfl⟩ read
  unfold Decimal.readPlain? at read
  split at read
  · exact ⟨.minus, _, rfl, start read⟩
  · exact ⟨.plus, _, rfl, start read⟩
  · exact ⟨.none, _, rfl, start read⟩

theorem Overfull.append_right {number : List Char} (overfull : Overfull number) (rest : List Char) :
    Overfull (number ++ rest) := by
  obtain ⟨whole, fraction, next, tail, rfl, full⟩ := overfull
  exact ⟨whole, fraction, next, tail ++ rest, by simp, full⟩

theorem exists_digitRun {text : List Char} {n : ℕ} (read : readNat? text = some n) :
    ∃ run : DigitRun, run.chars = text := by
  unfold readNat? at read
  split at read
  · cases read
  · rename_i some
    simp only [Bool.or_eq_true, List.isEmpty_iff, Bool.not_eq_true', not_or,
      Bool.not_eq_false, List.all_eq_true] at some
    exact ⟨⟨text, some.1, some.2⟩, rfl⟩

theorem of_readBounded? {limit n : ℕ} {text : List Char} (read : readBounded? limit text = some n) :
    ∃ (sign : Sign) (run : DigitRun), sign ≠ .minus ∧ text = sign.chars ++ run.chars := by
  unfold readBounded? at read
  split at read
  · obtain ⟨read, -⟩ := Option.filter_eq_some_iff.mp read
    obtain ⟨run, rfl⟩ := exists_digitRun read
    exact ⟨.plus, run, by decide, rfl⟩
  · obtain ⟨read, -⟩ := Option.filter_eq_some_iff.mp read
    obtain ⟨run, rfl⟩ := exists_digitRun read
    exact ⟨.none, run, by decide, rfl⟩

/-- An exponent is digits behind at most one sign, or behind a minus and a plus sign. -/
theorem of_applyExponent? {d x : Decimal} {exponent : List Char}
    (read : d.applyExponent? exponent = some x) :
    (∃ (sign : Sign) (power : DigitRun), exponent = sign.chars ++ power.chars) ∨
      ∃ power : DigitRun, exponent = '-' :: '+' :: power.chars := by
  unfold Decimal.applyExponent? at read
  split at read
  · obtain ⟨e, read, -⟩ := Option.bind_eq_some_iff.mp read
    obtain ⟨sign, power, natural, rfl⟩ := of_readBounded? read
    cases sign with
    | none => exact .inl ⟨.minus, power, rfl⟩
    | plus => exact .inr ⟨power, rfl⟩
    | minus => exact absurd rfl natural
  · obtain ⟨e, read, -⟩ := Option.bind_eq_some_iff.mp read
    obtain ⟨sign, power, -, rfl⟩ := of_readBounded? read
    exact .inl ⟨sign, power, rfl⟩

theorem of_cutAt? {test : Char → Bool} {text before after : List Char}
    (cut : Text.cutAt? test text = some (before, after)) :
    ∃ c, test c = true ∧ text = before ++ c :: after := by
  induction text generalizing before with
  | nil => cases cut
  | cons c text ih =>
      rw [Text.cutAt?] at cut
      split at cut
      · rename_i hit
        cases cut
        exact ⟨c, hit, rfl⟩
      · obtain ⟨⟨front, back⟩, found, same⟩ := Option.map_eq_some_iff.mp cut
        cases same
        obtain ⟨b, hit, rfl⟩ := ih found
        exact ⟨b, hit, rfl⟩

theorem IsNumber.of_mem {seenPoint seenDigit : Bool} {text : List Char}
    (isNumber : IsNumber seenPoint seenDigit text) :
    ∀ c ∈ text, isDigit c = true ∨ c = '.' ∨ c = '_' := by
  induction isNumber with
  | nil => simp
  | digit digit _ ih => exact List.forall_mem_cons.mpr ⟨.inl digit, ih⟩
  | point _ ih => exact List.forall_mem_cons.mpr ⟨.inr (.inl rfl), ih⟩
  | underscore _ ih => exact List.forall_mem_cons.mpr ⟨.inr (.inr rfl), ih⟩

/-- The characters of a number with its sign and its power of ten. -/
def IsNumeric (c : Char) : Prop :=
  isDigit c = true ∨ c ∈ ['.', '_', 'e', 'E', '+', '-']

theorem isNumeric_of_sign {sign : Sign} : ∀ c ∈ sign.chars, IsNumeric c := by
  cases sign <;> simp [Sign.chars, IsNumeric]

theorem isNumeric_of_run {run : DigitRun} : ∀ c ∈ run.chars, IsNumeric c := fun c member =>
  .inl (run.digits c member)

theorem IsNumber.isNumeric {seenPoint seenDigit : Bool} {text : List Char}
    (isNumber : IsNumber seenPoint seenDigit text) : ∀ c ∈ text, IsNumeric c := fun c member =>
  (isNumber.of_mem c member).imp_right fun mark => by rcases mark with rfl | rfl <;> decide

theorem IsUnsigned.isNumeric {text : List Char} (unsigned : IsUnsigned text) :
    ∀ c ∈ text, IsNumeric c := by
  cases unsigned with
  | plain isNumber => exact isNumber.isNumeric
  | scientific isNumber exponent sign power =>
      refine List.forall_mem_append.mpr ⟨isNumber.isNumeric, List.forall_mem_cons.mpr ⟨.inr ?_,
        List.forall_mem_append.mpr ⟨isNumeric_of_sign, isNumeric_of_run⟩⟩⟩
      rcases exponent with rfl | rfl <;> decide

theorem IsNumeric.unblank {c : Char} (numeric : IsNumeric c) : Text.isBlank c = false := by
  rcases numeric with digit | mark
  · exact Text.isBlank_of_isDigit digit
  · simp only [List.mem_cons, List.not_mem_nil, or_false] at mark
    rcases mark with rfl | rfl | rfl | rfl | rfl | rfl <;> rfl

/-- What is read as a decimal is a number behind one sign, or is overfull, or has two signs in its
exponent. -/
theorem of_read? {text : List Char} {d : Decimal} (read : Decimal.read? text = some d) :
    ∃ (sign : Sign) (number : List Char), text = sign.chars ++ number ∧
      (IsUnsigned number ∨ Overfull number ∨
        ¬ SignsApart number ∧ ∀ c ∈ number, IsNumeric c) := by
  unfold Decimal.read? at read
  split at read
  · obtain ⟨sign, number, rfl, plain⟩ := of_readPlain? read
    exact ⟨sign, number, rfl, plain.imp .plain .inl⟩
  · rename_i base exponent cut
    obtain ⟨letter, hit, rfl⟩ := of_cutAt? cut
    have isLetter : letter = 'e' ∨ letter = 'E' := by simpa using hit
    obtain ⟨d, readBase, readExponent⟩ := Option.bind_eq_some_iff.mp read
    obtain ⟨sign, number, rfl, plain⟩ := of_readPlain? readBase
    refine ⟨sign, number ++ letter :: exponent, by rw [List.append_assoc], ?_⟩
    rcases plain with plain | overfull
    · rcases of_applyExponent? readExponent with ⟨sign, power, rfl⟩ | ⟨power, rfl⟩
      · exact .inl (.scientific plain isLetter sign power)
      · refine .inr (.inr ⟨fun apart => ?_, ?_⟩)
        · have inside := (List.isChain_append_cons_cons.mp apart).2.2
          have letter := (List.isChain_cons_cons.mp inside).1 (.inl rfl)
          simp at letter
        · simp only [List.forall_mem_append, List.forall_mem_cons]
          refine ⟨plain.isNumeric, .inr ?_, .inr (by decide), .inr (by decide), isNumeric_of_run⟩
          rcases isLetter with rfl | rfl <;> decide
    · exact .inr (.inl (overfull.append_right _))

/-! ## Units -/

theorem of_unitSeconds? {name : List Char} {seconds : Int64}
    (found : unitSeconds? name = some seconds) :
    ∃ unit : TimeUnit, String.ofList name ∈ unit.names := by
  unfold unitSeconds? at found
  split at found
  case h_11 => cases found
  all_goals rename_i same; rw [same]
  case h_1 => exact ⟨.year, by decide⟩
  case h_2 | h_3 => exact ⟨.month, by decide⟩
  case h_4 => exact ⟨.week, by decide⟩
  case h_5 => exact ⟨.day, by decide⟩
  case h_6 => exact ⟨.hour, by decide⟩
  case h_7 | h_8 => exact ⟨.minute, by decide⟩
  case h_9 | h_10 => exact ⟨.second, by decide⟩

theorem exists_dropEndWhile (c : Char) (text : List Char) :
    ∃ n, text = Text.dropEndWhile (· == c) text ++ List.replicate n c := by
  have ends := List.takeWhile_append_dropWhile (p := (· == c)) (l := text.reverse)
  refine ⟨(text.reverse.takeWhile (· == c)).length, ?_⟩
  have same : text.reverse.takeWhile (· == c) =
      List.replicate (text.reverse.takeWhile (· == c)).length c :=
    List.eq_replicate_of_mem fun b member => by simpa using List.mem_takeWhile_imp member
  rw [Text.dropEndWhile, ← List.reverse_replicate, ← same, ← List.reverse_append, ends,
    List.reverse_reverse]

theorem mem_spellings {unit : TimeUnit} {name : List Char} (named : String.ofList name ∈ unit.names)
    {ending : String} (known : ending ∈ ["", "s", ",", "s,"]) :
    name ++ ending.toList ∈ unit.spellings := by
  have spelled :=
    List.mem_map_of_mem (f := fun ending => (String.ofList name ++ ending).toList) known
  rw [String.toList_append, String.toList_ofList] at spelled
  exact List.mem_flatMap.mpr ⟨_, named, spelled⟩

/-- A word that is read as a unit names one, or has its ending doubled. -/
theorem of_readUnitSeconds? {word : List Char} {seconds : Int64}
    (read : readUnitSeconds? word = some seconds) : IsUnit word ∨ DoubledEnding word := by
  unfold readUnitSeconds? at read
  obtain ⟨commas, withCommas⟩ := exists_dropEndWhile ',' (word.map Char.toLower)
  obtain ⟨plurals, withPlurals⟩ :=
    exists_dropEndWhile 's' (Text.dropEndWhile (· == ',') (word.map Char.toLower))
  obtain ⟨unit, named⟩ := of_unitSeconds? read
  generalize Text.dropEndWhile (· == 's') _ = name at *
  rw [withPlurals] at withCommas
  have doubled (n : ℕ) (c : Char) : List.replicate (n + 2) c = List.replicate n c ++ [c, c] :=
    List.replicate_add n 2 c
  have single (ending : String) (known : ending ∈ ["", "s", ",", "s,"])
      (same : word.map Char.toLower = name ++ ending.toList) : IsUnit word :=
    ⟨unit, same ▸ mem_spellings named known⟩
  match commas, plurals with
  | 0, 0 => exact .inl (single "" (by decide) (by simpa using withCommas))
  | 0, 1 => exact .inl (single "s" (by decide) (by simpa using withCommas))
  | 1, 0 => exact .inl (single "," (by decide) (by simpa using withCommas))
  | 1, 1 => exact .inl (single "s," (by decide) (by simpa using withCommas))
  | 0, n + 2 =>
      exact .inr ⟨"ss", by decide, name ++ List.replicate n 's', by simp [withCommas, doubled]⟩
  | 1, n + 2 =>
      exact .inr ⟨"ss,", by decide, name ++ List.replicate n 's', by simp [withCommas, doubled]⟩
  | n + 2, plurals =>
      exact .inr ⟨",,", by decide, name ++ List.replicate plurals 's' ++ List.replicate n ',',
        by simp [withCommas, doubled]⟩

/-! ## Clocks -/

/-- There is at most one sign in front. -/
theorem SignsApart.exists_sign {signs rest : List Char} (apart : SignsApart (signs ++ rest))
    (each : ∀ c ∈ signs, c = '+' ∨ c = '-') : ∃ sign : Sign, signs = sign.chars := by
  match signs with
  | [] => exact ⟨.none, rfl⟩
  | [c] =>
      rcases each c List.mem_cons_self with rfl | rfl
      · exact ⟨.plus, rfl⟩
      · exact ⟨.minus, rfl⟩
  | a :: b :: signs =>
      have letter := (List.isChain_cons_cons.mp apart).1 (each b (by simp))
      rcases each a List.mem_cons_self with rfl | rfl <;> simp at letter

theorem SignsApart.of_suffix {word back : List Char} (apart : SignsApart word)
    (suffix : back <:+ word) : SignsApart back := by
  obtain ⟨front, rfl⟩ := suffix
  exact List.IsChain.right_of_append apart

/-- There is no sign behind a character other than the letter of a power of ten. -/
theorem SignsApart.eq_none {rest : List Char} {c : Char} {sign : Sign}
    (apart : SignsApart (c :: (sign.chars ++ rest))) (other : c ≠ 'e' ∧ c ≠ 'E') :
    sign = .none := by
  cases sign with
  | none => rfl
  | plus | minus =>
      have letter := (List.isChain_cons_cons.mp apart).1 (by simp)
      exact absurd letter (by simp [other])

theorem of_readWord? {text : List Char} {w : Int64} (read : readWord? text = some w) :
    ∃ (sign : Sign) (run : DigitRun), text = sign.chars ++ run.chars := by
  obtain ⟨n, read, -⟩ := Option.bind_eq_some_iff.mp read
  unfold readInt? at read
  split at read
  all_goals
    obtain ⟨_, read, -⟩ := Option.map_eq_some_iff.mp read
    obtain ⟨_, read, -⟩ := Option.bind_eq_some_iff.mp read
    obtain ⟨run, rfl⟩ := exists_digitRun read
  · exact ⟨.minus, run, rfl⟩
  · exact ⟨.plus, run, rfl⟩
  · exact ⟨.none, run, rfl⟩

/-- The fields of a clock may each have a sign. -/
theorem of_readClockFields? {body : List Char} {i : Interval}
    (read : readClockFields? body = some i) :
    ∃ (sign sign' : Sign) (hours minutes : DigitRun) (back : List Char),
      body = sign.chars ++ (hours.chars ++ ':' :: (sign'.chars ++ (minutes.chars ++ back))) ∧
        (back = [] ∨ ∃ seconds d, back = ':' :: seconds ∧ Decimal.read? seconds = some d) := by
  unfold readClockFields? at read
  simp only [Option.bind_eq_bind, Option.bind_eq_some_iff, Prod.exists] at read
  obtain ⟨front, rest, cut, w, readHours, v, readMinutes, d, readSeconds, -⟩ := read
  obtain ⟨c, colon, rfl⟩ := of_cutAt? cut
  obtain rfl : c = ':' := by simpa using colon
  obtain ⟨sign, hours, rfl⟩ := of_readWord? readHours
  obtain ⟨sign', minutes, same⟩ := of_readWord? readMinutes
  cases more : Text.cutAt? (· == ':') rest with
  | none =>
      simp only [more] at same
      exact ⟨sign, sign', hours, minutes, [], by simp [same], .inl rfl⟩
  | some fields =>
      obtain ⟨middle, seconds⟩ := fields
      simp only [more] at same readSeconds
      obtain ⟨c, colon, rfl⟩ := of_cutAt? more
      obtain rfl : c = ':' := by simpa using colon
      exact ⟨sign, sign', hours, minutes, ':' :: seconds, by simp [same],
        .inr ⟨seconds, d, rfl, readSeconds⟩⟩

/-- A word that is read as a clock is one, or has a sign inside, or is overfull. -/
theorem of_readSignedClock? {word : List Char} {i : Interval}
    (read : readSignedClock? word = some i) (apart : SignsApart word)
    (room : ∀ number, number <:+ word → ¬ Overfull number) : IsClock word := by
  have split : ∃ signs body j, word = signs ++ body ∧ (∀ c ∈ signs, c = '+' ∨ c = '-') ∧
      readClockFields? body = some j := by
    unfold readSignedClock? at read
    split at read
    · rename_i body
      obtain ⟨j, read, -⟩ := Option.map_eq_some_iff.mp read
      exact ⟨['-'], body, j, rfl, by simp, read⟩
    · refine ⟨word.takeWhile (· == '+'), _, i, List.takeWhile_append_dropWhile.symm,
        fun c member => .inl (by simpa using List.mem_takeWhile_imp member), read⟩
  obtain ⟨signs, body, j, rfl, each, read⟩ := split
  obtain ⟨inner, second, hours, minutes, back, rfl, last⟩ := of_readClockFields? read
  have front : ∀ c ∈ signs ++ inner.chars, c = '+' ∨ c = '-' :=
    List.forall_mem_append.mpr ⟨each, Sign.of_mem_chars⟩
  rw [← List.append_assoc] at apart room ⊢
  obtain ⟨sign, same⟩ := apart.exists_sign front
  rw [same] at apart room ⊢
  have behind : ':' :: (second.chars ++ (minutes.chars ++ back)) <:+
      sign.chars ++ (hours.chars ++ ':' :: (second.chars ++ (minutes.chars ++ back))) :=
    ⟨sign.chars ++ hours.chars, by simp⟩
  obtain rfl : second = .none := (apart.of_suffix behind).eq_none (by decide)
  rcases last with rfl | ⟨seconds, d, rfl, readSeconds⟩
  · rw [List.append_nil]
    exact .short sign hours minutes
  · obtain ⟨third, number, rfl, unsigned⟩ := of_read? readSeconds
    have behind : ':' :: (third.chars ++ number) <:+ sign.chars ++ (hours.chars ++ ':' ::
        (Sign.none.chars ++ (minutes.chars ++ ':' :: (third.chars ++ number)))) :=
      ⟨sign.chars ++ (hours.chars ++ ':' :: minutes.chars), by simp [Sign.chars]⟩
    obtain rfl : third = .none := (apart.of_suffix behind).eq_none (by decide)
    have last : number <:+ sign.chars ++ (hours.chars ++ ':' :: (Sign.none.chars ++
        (minutes.chars ++ ':' :: (Sign.none.chars ++ number)))) :=
      ⟨sign.chars ++ (hours.chars ++ ':' :: minutes.chars ++ [':']), by simp [Sign.chars]⟩
    rcases unsigned with unsigned | overfull | inside
    · exact .long sign hours minutes unsigned
    · exact absurd overfull (room number last)
    · exact absurd (apart.of_suffix last) inside.1

/-! ## Texts -/

/-- What is read in sequence are parts. -/
theorem parts_of_readParts? {total i : Interval} {words : List (List Char)}
    (read : readParts? total words = some i) :
    Parts (fun word => ∃ d, Decimal.read? word = some d)
      (fun word => ∃ seconds, readUnitSeconds? word = some seconds)
      (fun word => ∃ clock, readSignedClock? word = some clock) words := by
  match words with
  | [] => exact .nil
  | word :: rest =>
      by_cases colon : word.contains ':' = true
      · rw [readParts?_clock total colon] at read
        obtain ⟨clock, readClock, read⟩ := Option.bind_eq_some_iff.mp read
        obtain ⟨next, -, read⟩ := Option.bind_eq_some_iff.mp read
        exact .clock ⟨clock, readClock⟩ (parts_of_readParts? read)
      · cases rest with
        | nil =>
            rw [readParts?, if_neg colon] at read
            cases read
        | cons next rest =>
            rw [readParts?_amount total (by simpa using colon)] at read
            obtain ⟨d, readAmount, read⟩ := Option.bind_eq_some_iff.mp read
            obtain ⟨seconds, readUnit, read⟩ := Option.bind_eq_some_iff.mp read
            obtain ⟨product, -, read⟩ := Option.bind_eq_some_iff.mp read
            obtain ⟨part, -, read⟩ := Option.bind_eq_some_iff.mp read
            obtain ⟨total, -, read⟩ := Option.bind_eq_some_iff.mp read
            exact .amount ⟨d, readAmount⟩ ⟨seconds, readUnit⟩ (parts_of_readParts? read)

theorem Parts.imp {Amount Unit Clock Amount' Unit' Clock' : List Char → Prop}
    {words : List (List Char)} (parts : Parts Amount Unit Clock words)
    (amounts : ∀ word ∈ words, Amount word → Amount' word)
    (units : ∀ word ∈ words, Unit word → Unit' word)
    (clocks : ∀ word ∈ words, Clock word → Clock' word) : Parts Amount' Unit' Clock' words := by
  induction parts with
  | nil => exact .nil
  | clock clock _ ih =>
      rw [List.forall_mem_cons] at amounts units clocks
      exact .clock (clocks.1 clock) (ih amounts.2 units.2 clocks.2)
  | amount amount unit _ ih =>
      simp only [List.forall_mem_cons] at amounts units clocks
      exact .amount (amounts.1 amount) (units.2.1 unit) (ih amounts.2.2 units.2.2 clocks.2.2)

theorem Parts.of_mem {Amount Unit Clock : List Char → Prop} {words : List (List Char)}
    (parts : Parts Amount Unit Clock words) :
    ∀ word ∈ words, Amount word ∨ Unit word ∨ Clock word := by
  induction parts with
  | nil => simp
  | clock clock _ ih => exact List.forall_mem_cons.mpr ⟨.inr (.inr clock), ih⟩
  | amount amount unit _ ih =>
      exact List.forall_mem_cons.mpr ⟨.inl amount, List.forall_mem_cons.mpr ⟨.inr (.inl unit), ih⟩⟩

/-- An overfull number at the front of a text is in its first word. -/
theorem crowded_of_overfull {sign : Sign} {number : List Char} (overfull : Overfull number)
    {text : List Char} (same : text = sign.chars ++ number) :
    ∃ word ∈ Text.words text, ∃ number, number <:+ word ∧ Overfull number := by
  obtain ⟨whole, fraction, next, rest, rfl, each, last, full⟩ := overfull
  have numeric : ∀ c ∈ sign.chars ++ (whole ++ '.' :: (fraction ++ [next])), IsNumeric c := by
    have digits : ∀ c ∈ whole ++ fraction, IsNumeric c := fun c member =>
      (each c member).imp_right fun mark => by rw [mark]; decide
    rw [List.forall_mem_append] at digits
    simp only [List.forall_mem_append, List.forall_mem_cons]
    refine ⟨isNumeric_of_sign, digits.1, .inr (by decide), digits.2, ?_, by simp⟩
    exact last.imp_right fun mark => by rcases mark with rfl | rfl <;> decide
  obtain ⟨more, others, words⟩ :=
    Text.exists_words_append (by simp) (fun c member => (numeric c member).unblank) rest
  have text : sign.chars ++ (whole ++ '.' :: (fraction ++ [next])) ++ rest = text := by
    rw [same]
    simp
  rw [text] at words
  refine ⟨_, words ▸ List.mem_cons_self, whole ++ '.' :: (fraction ++ next :: more), ?_,
    whole, fraction, next, more, rfl, each, last, full⟩
  exact ⟨sign.chars, by simp⟩

/-- What is read as an interval is well-formed, or it slipped through, or a number in it is cut
short. -/
theorem of_readInterval? {text : String} {i : Interval} (read : readInterval? text = some i) :
    WellFormed text ∨ Slipped text ∨ Crowded text := by
  unfold readInterval? at read
  unfold Slipped Crowded
  rw [← Text.words_trimChars]
  cases decimal : Decimal.read? (Text.trimChars text.toList) with
  | some d =>
      obtain ⟨sign, number, same, unsigned | overfull | ⟨inside, numeric⟩⟩ := of_read? decimal
      · exact .inl (.inl ⟨sign, number, unsigned, same⟩)
      · exact .inr (.inr (crowded_of_overfull overfull same))
      · refine .inr (.inl ?_)
        by_cases nonempty : Text.trimChars text.toList = []
        · rw [nonempty]
          exact .inl rfl
        · have unblank : ∀ c ∈ Text.trimChars text.toList, Text.isBlank c = false := by
            rw [same]
            intro c member
            exact (List.forall_mem_append.mpr ⟨isNumeric_of_sign, numeric⟩ c member).unblank
          rw [Text.words_of_unblank nonempty unblank]
          refine .inr ⟨_, List.mem_singleton_self _, .inl fun apart => inside (apart.of_suffix ?_)⟩
          exact ⟨sign.chars, same.symm⟩
  | none =>
      simp only [decimal] at read
      have parts := parts_of_readParts? read
      by_cases none : Text.words (Text.trimChars text.toList) = []
      · exact .inr (.inl (.inl none))
      by_cases slipped : ∃ word ∈ Text.words (Text.trimChars text.toList),
          ¬ SignsApart word ∨ DoubledEnding word
      · exact .inr (.inl (.inr slipped))
      by_cases crowded : ∃ word ∈ Text.words (Text.trimChars text.toList),
          ∃ number, number <:+ word ∧ Overfull number
      · exact .inr (.inr crowded)
      simp only [not_exists, not_and, not_or, not_not] at slipped crowded
      refine .inl (.inr ⟨_, none, ?_, parts.imp ?_ ?_ ?_⟩)
      · rw [Text.words_trimChars]
        exact Text.words_eq_iff.mp rfl
      · rintro word member ⟨d, read⟩
        obtain ⟨sign, number, rfl, unsigned | overfull | ⟨inside, -⟩⟩ := of_read? read
        · exact ⟨sign, number, unsigned, rfl⟩
        · exact absurd overfull (crowded _ member number ⟨sign.chars, rfl⟩)
        · exact absurd ((slipped _ member).1.of_suffix ⟨sign.chars, rfl⟩) inside
      · rintro word member ⟨seconds, read⟩
        exact (of_readUnitSeconds? read).resolve_right (slipped word member).2
      · rintro word member ⟨clock, read⟩
        exact of_readSignedClock? read (slipped word member).1 (crowded word member)

/-! ## Slips are malformed -/

theorem signsApart_of_unsigned {text : List Char} (unsigned : ∀ c ∈ text, c ≠ '+' ∧ c ≠ '-') :
    SignsApart text := by
  induction text with
  | nil => exact .nil
  | cons c text ih =>
      rw [List.forall_mem_cons] at unsigned
      refine List.isChain_cons.mpr ⟨fun b first sign => ?_, ih unsigned.2⟩
      have other := unsigned.2 b (List.mem_of_mem_head? first)
      simp [other] at sign

theorem SignsApart.append {front back : List Char} (apart : SignsApart front)
    (apart' : SignsApart back) (unsigned : ∀ c ∈ back.head?, c ≠ '+' ∧ c ≠ '-') :
    SignsApart (front ++ back) :=
  List.isChain_append.mpr ⟨apart, apart', fun _ _ b first sign => by
    simp [unsigned b first] at sign⟩

theorem signsApart_sign (sign : Sign) : SignsApart sign.chars := by
  cases sign
  · exact .nil
  · exact .singleton _
  · exact .singleton _

theorem unsigned_of_isDigit {c : Char} (digit : isDigit c = true) : c ≠ '+' ∧ c ≠ '-' :=
  ⟨isDigit_ne digit rfl, isDigit_ne digit rfl⟩

theorem unsigned_head (run : DigitRun) (rest : List Char) :
    ∀ c ∈ (run.chars ++ rest).head?, c ≠ '+' ∧ c ≠ '-' := by
  intro c first
  rw [List.head?_append_of_ne_nil _ run.nonempty] at first
  exact unsigned_of_isDigit (run.digits c (List.mem_of_mem_head? first))

theorem signsApart_run (run : DigitRun) : SignsApart run.chars :=
  signsApart_of_unsigned fun c member => unsigned_of_isDigit (run.digits c member)

theorem IsNumber.unsigned {seenPoint seenDigit : Bool} {text : List Char}
    (isNumber : IsNumber seenPoint seenDigit text) : ∀ c ∈ text, c ≠ '+' ∧ c ≠ '-' := by
  intro c member
  rcases isNumber.of_mem c member with digit | rfl | rfl
  · exact unsigned_of_isDigit digit
  · decide
  · decide

namespace IsUnsigned

variable {text : List Char}

theorem ne_nil (unsigned : IsUnsigned text) : text ≠ [] := by
  cases unsigned with
  | plain isNumber =>
      rintro rfl
      cases isNumber
  | scientific => simp

theorem unsigned_head (unsigned : IsUnsigned text) : ∀ c ∈ text.head?, c ≠ '+' ∧ c ≠ '-' := by
  cases unsigned with
  | plain isNumber => exact fun c first => isNumber.unsigned c (List.mem_of_mem_head? first)
  | @scientific number letter isNumber exponent sign power =>
      intro c first
      cases number with
      | nil => cases isNumber
      | cons b number =>
          obtain rfl : b = c := by simpa using first
          exact isNumber.unsigned b List.mem_cons_self

theorem signsApart (unsigned : IsUnsigned text) : SignsApart text := by
  cases unsigned with
  | plain isNumber => exact signsApart_of_unsigned isNumber.unsigned
  | scientific isNumber exponent sign power =>
      have behind : SignsApart (sign.chars ++ power.chars) := by
        refine (signsApart_sign sign).append (signsApart_run power) ?_
        simpa using Calendar.unsigned_head power []
      refine (signsApart_of_unsigned isNumber.unsigned).append
        (List.isChain_cons.mpr ⟨fun _ _ _ => exponent, behind⟩) fun c first => ?_
      rcases exponent with rfl | rfl <;> (obtain rfl := Option.some.inj first; decide)

end IsUnsigned

theorem IsDecimal.signsApart {text : List Char} (decimal : IsDecimal text) : SignsApart text := by
  obtain ⟨sign, number, unsigned, rfl⟩ := decimal
  exact (signsApart_sign sign).append unsigned.signsApart unsigned.unsigned_head

theorem IsClock.signsApart {text : List Char} (clock : IsClock text) : SignsApart text := by
  have colon {rest : List Char} (apart : SignsApart rest)
      (unsigned : ∀ c ∈ rest.head?, c ≠ '+' ∧ c ≠ '-') : SignsApart (':' :: rest) := by
    have single : SignsApart [':'] := .singleton _
    exact single.append apart unsigned
  have fields (sign : Sign) (hours : DigitRun) {rest : List Char}
      (apart : SignsApart (':' :: rest)) :
      SignsApart (sign.chars ++ (hours.chars ++ ':' :: rest)) :=
    (signsApart_sign sign).append ((signsApart_run hours).append apart (by simp))
      (unsigned_head hours _)
  cases clock with
  | short sign hours minutes =>
      refine fields sign hours (colon (signsApart_run minutes) ?_)
      simpa using unsigned_head minutes []
  | long sign hours minutes decimal =>
      exact fields sign hours (colon ((signsApart_run minutes).append
        (colon decimal.signsApart decimal.unsigned_head) (by simp)) (unsigned_head minutes _))

theorem IsUnit.signsApart {word : List Char} (unit : IsUnit word) : SignsApart word := by
  obtain ⟨unit, spelled⟩ := unit
  have each : ∀ spelling ∈ unit.spellings, '+' ∉ spelling ∧ '-' ∉ spelling := by
    cases unit <;> decide
  refine signsApart_of_unsigned fun c member => ?_
  have lower := List.mem_map_of_mem (f := Char.toLower) member
  constructor
  · rintro rfl
    exact (each _ spelled).1 lower
  · rintro rfl
    exact (each _ spelled).2 lower

theorem IsDecimal.isNumeric {text : List Char} (decimal : IsDecimal text) :
    ∀ c ∈ text, IsNumeric c := by
  obtain ⟨sign, number, unsigned, rfl⟩ := decimal
  exact List.forall_mem_append.mpr ⟨isNumeric_of_sign, unsigned.isNumeric⟩

theorem IsClock.isNumeric {text : List Char} (clock : IsClock text) :
    ∀ c ∈ text, IsNumeric c ∨ c = ':' := by
  have digits (run : DigitRun) : ∀ c ∈ run.chars, IsNumeric c ∨ c = ':' := fun c member =>
    .inl (isNumeric_of_run c member)
  have signs (sign : Sign) : ∀ c ∈ sign.chars, IsNumeric c ∨ c = ':' := fun c member =>
    .inl (isNumeric_of_sign c member)
  cases clock with
  | short sign hours minutes =>
      simp only [List.forall_mem_append, List.forall_mem_cons, or_true, true_and]
      exact ⟨signs sign, digits hours, digits minutes⟩
  | long sign hours minutes decimal =>
      simp only [List.forall_mem_append, List.forall_mem_cons, or_true, true_and]
      exact ⟨signs sign, digits hours, digits minutes,
        fun c member => .inl (decimal.isNumeric c member)⟩

theorem toLower_of_isDigit {c : Char} (digit : isDigit c = true) : c.toLower = c := by
  refine dif_neg fun upper => ?_
  have capital : 'A'.toNat ≤ c.toNat := UInt32.le_iff_toNat_le.mp upper.1
  simp only [isDigit, Bool.and_eq_true, decide_eq_true_eq] at digit
  exact absurd (capital.trans digit.2) (by decide)

/-- Numbers and clocks have no ending of a unit. -/
theorem not_doubledEnding_of_numeric {word : List Char}
    (numeric : ∀ c ∈ word, IsNumeric c ∨ c = ':') : ¬ DoubledEnding word := by
  rintro ⟨ending, known, suffix⟩
  have letter : ∃ b ∈ ending.toList, b = 's' ∨ b = ',' := by
    simp only [List.mem_cons, List.not_mem_nil, or_false] at known
    rcases known with rfl | rfl | rfl
    · exact ⟨'s', by decide, .inl rfl⟩
    · exact ⟨'s', by decide, .inl rfl⟩
    · exact ⟨',', by decide, .inr rfl⟩
  obtain ⟨b, inEnding, isEnding⟩ := letter
  obtain ⟨c, member, rfl⟩ := List.mem_map.mp (suffix.subset inEnding)
  rcases numeric c member with (digit | mark) | rfl
  · rw [toLower_of_isDigit digit] at isEnding
    rcases isEnding with rfl | rfl <;> cases digit
  · simp only [List.mem_cons, List.not_mem_nil, or_false] at mark
    rcases mark with rfl | rfl | rfl | rfl | rfl | rfl <;> exact absurd isEnding (by decide)
  · revert isEnding
    decide

theorem IsUnit.not_doubledEnding {word : List Char} (unit : IsUnit word) :
    ¬ DoubledEnding word := by
  obtain ⟨unit, spelled⟩ := unit
  have each : ∀ spelling ∈ unit.spellings, ∀ ending ∈ ["ss", "ss,", ",,"],
      ¬ ending.toList <:+ spelling := by
    cases unit <;> decide
  rintro ⟨ending, known, suffix⟩
  exact each _ spelled ending known suffix

/-- What slipped through is not well-formed. -/
theorem WellFormed.not_slipped {text : String} (wellFormed : WellFormed text) : ¬ Slipped text := by
  unfold Slipped
  rcases wellFormed with decimal | ⟨words, nonempty, spaced, parts⟩
  · have some : Text.trimChars text.toList ≠ [] := by
      obtain ⟨sign, number, unsigned, same⟩ := decimal
      rw [same]
      simp [unsigned.ne_nil]
    rw [← Text.words_trimChars, Text.words_of_unblank some fun c member =>
      (decimal.isNumeric c member).unblank]
    rintro (none | ⟨word, member, slip⟩)
    · cases none
    · obtain rfl := List.mem_singleton.mp member
      exact slip.elim (absurd decimal.signsApart)
        (not_doubledEnding_of_numeric fun c member => .inl (decimal.isNumeric c member))
  · rw [Text.words_eq_iff.mpr spaced]
    rintro (none | ⟨word, member, slip⟩)
    · exact nonempty none
    · rcases parts.of_mem word member with decimal | unit | clock
      · exact slip.elim (absurd decimal.signsApart)
          (not_doubledEnding_of_numeric fun c member => .inl (decimal.isNumeric c member))
      · exact slip.elim (absurd unit.signsApart) unit.not_doubledEnding
      · exact slip.elim (absurd clock.signsApart) (not_doubledEnding_of_numeric clock.isNumeric)

/-- Every text that is read as an interval is well-formed, apart from the slips, which are not, and
from texts with more digits than there is room for. -/
theorem read_intervals_are_well_formed {text : String} {i : Interval}
    (read : readInterval? text = some i) :
    (WellFormed text ∨ Slipped text ∨ Crowded text) ∧ ¬ (WellFormed text ∧ Slipped text) :=
  ⟨of_readInterval? read, fun both => both.1.not_slipped both.2⟩

/-- One hour and minus two minutes on a clock are 58 minutes. -/
theorem minus_inside_clock_is_read :
    ∃ i, readInterval? "1:-2" = some i ∧ i.nanos = 3480000000000 ∧
      Slipped "1:-2" ∧ ¬ WellFormed "1:-2" := by
  have clock : readSignedClock? ['1', ':', '-', '2'] = some ⟨3480000000000, by decide⟩ := by
    decide +kernel
  have sum : Interval.zero.add? ⟨3480000000000, by decide⟩ = some ⟨3480000000000, by decide⟩ := by
    decide
  have words : Text.words (Text.trimChars "1:-2".toList) = [['1', ':', '-', '2']] := by decide
  have parts : Decimal.read? (Text.trimChars "1:-2".toList) = none := by decide
  have read : readInterval? "1:-2" = some ⟨3480000000000, by decide⟩ := by
    simp only [readInterval?, parts, words]
    rw [readParts?_clock Interval.zero (by decide), clock, Option.bind_some, sum, Option.bind_some]
    simp only [readParts?]
  have slipped : Slipped "1:-2" := by
    refine .inr ⟨['1', ':', '-', '2'], by decide, .inl ?_⟩
    unfold SignsApart
    decide
  exact ⟨_, read, rfl, slipped, fun wellFormed =>
    (read_intervals_are_well_formed read).2 ⟨wellFormed, slipped⟩⟩

end RowQuery.Calendar
