import Mathlib.Data.List.Infix
import RowQuery.Proofs.Reach.Literal
import RowQuery.Proofs.Sql.Phrase

/-!
# The parts of a table

Between the brackets of a CREATE TABLE statement stand its parts with commas between them: columns
and constraints.  A primary key is declared wherever a part says so, and a default draws from a
sequence where it calls for the next value.  Lexemes that do so however the text goes on are put
together, and the parts are read back.
-/

namespace RowQuery.Sql

open RowQuery.Number

/-! ## Reading a table -/

/-- The parts up to the bracket that closes the list and ends the text.  A comma in other brackets
separates no parts. -/
def parts? (depth : Nat) (read : List Lexeme) : List Lexeme → Option (List (List Lexeme))
  | [] => none
  | lexeme :: rest =>
      match lexeme.shift depth with
      | none => if rest = [] then some [read] else none
      | some deeper =>
          if deeper = 0 ∧ lexeme = .symbol ',' then (parts? 0 [] rest).map (read :: ·)
          else parts? deeper (read ++ [lexeme]) rest

/-- The word is a keyword, in any case. -/
def Lexeme.isWord (keyword : String) : Lexeme → Bool
  | word letters => Text.asciiUpper letters == keyword
  | text _ | name _ | symbol _ => false

def beginsKey : List Lexeme → Bool
  | first :: second :: _ => first.isWord "PRIMARY" && second.isWord "KEY"
  | _ => false

/-- The sequence of which the next value is called for. -/
def sequence? : List Lexeme → Option String
  | first :: .symbol '(' :: .text sequence :: _ =>
      if first.isWord "NEXTVAL" then some sequence else none
  | _ => none

def Lexeme.path : Lexeme → List String
  | name path => path
  | word _ | text _ | symbol _ => []

/-- The columns that a part is about: a column about itself, a constraint about those it names. -/
def columnsOf : List Lexeme → List String
  | .name path :: _ => path
  | part => part.flatMap Lexeme.path

/-- The declarations of a primary key in a part, each with its columns. -/
def keyDeclarations (part : List Lexeme) : List (List String) :=
  List.replicate (part.tails.countP beginsKey) (columnsOf part)

/-- The sequences that a part draws from. -/
def drawnSequences (part : List Lexeme) : List String :=
  part.tails.filterMap sequence?

variable {first second read lexemes : List Lexeme} {lexeme : Lexeme} {n m : Nat}
variable {drawn more : List String}

/-! ## Lexemes in a part -/

/-- However the text goes on, the lexemes stand in one part. -/
def Together (lexemes : List Lexeme) : Prop :=
  ∀ read rest, parts? 0 read (lexemes ++ rest) = parts? 0 (read ++ lexemes) rest

/-- In other brackets commas do not count. -/
theorem parts?_append (outer : Nat) {depth last : Nat} (closed : level depth lexemes = some last)
    (stays : outer = 0 → lexemes.all (· != .symbol ',') = true) (read rest : List Lexeme) :
    parts? (outer + depth) read (lexemes ++ rest) =
      parts? (outer + last) (read ++ lexemes) rest := by
  induction lexemes generalizing depth read with
  | nil =>
      obtain rfl := Option.some.inj closed
      rw [List.nil_append, List.append_nil]
  | cons lexeme lexemes ih =>
      rw [level, List.foldlM_cons] at closed
      obtain ⟨deeper, shifted, later⟩ := Option.bind_eq_some_iff.1 closed
      simp only [List.all_cons, Bool.and_eq_true, bne_iff_ne] at stays
      have goesOn : ¬(outer + deeper = 0 ∧ lexeme = .symbol ',') := fun ends =>
        (stays (by omega)).1 ends.2
      rw [List.cons_append, parts?, shift_add shifted]
      simp only [goesOn, if_false]
      rw [ih later fun least => (stays least).2, List.append_assoc, List.singleton_append]

namespace Together

theorem nil : Together [] := by
  intro read rest
  rw [List.nil_append, List.append_nil]

theorem append (one : Together first) (other : Together second) : Together (first ++ second) := by
  intro read rest
  rw [List.append_assoc, one, other, List.append_assoc]

theorem closed (closed : level 0 lexemes = some 0)
    (noComma : lexemes.all (· != .symbol ',') = true) : Together lexemes :=
  parts?_append 0 closed fun _ => noComma

theorem cons (closed : level 0 [lexeme] = some 0) (noComma : lexeme ≠ .symbol ',')
    (rest : Together lexemes) : Together (lexeme :: lexemes) :=
  append (.closed closed (by simpa using noComma)) rest

theorem word (letters : String) (rest : Together lexemes) : Together (.word letters :: lexemes) :=
  .cons rfl nofun rest

theorem bracketed (closed : level 0 lexemes = some 0) :
    Together (.symbol '(' :: (lexemes ++ [.symbol ')'])) := by
  intro read rest
  have opening : (Lexeme.symbol '(').shift 0 = some (1 + 0) := rfl
  have closing : (Lexeme.symbol ')').shift (1 + 0) = some 0 := rfl
  have opens : ¬(1 + 0 = 0 ∧ Lexeme.symbol '(' = .symbol ',') := by simp
  have closes : ¬(0 = 0 ∧ Lexeme.symbol ')' = .symbol ',') := by simp
  calc parts? 0 read (.symbol '(' :: (lexemes ++ [.symbol ')']) ++ rest)
    _ = parts? (1 + 0) (read ++ [.symbol '(']) (lexemes ++ (.symbol ')' :: rest)) := by
        rw [List.cons_append, List.append_assoc, List.singleton_append, parts?, opening]
        exact if_neg opens
    _ = parts? (1 + 0) (read ++ [.symbol '('] ++ lexemes) (.symbol ')' :: rest) :=
        parts?_append 1 closed nofun _ _
    _ = parts? 0 (read ++ [.symbol '('] ++ lexemes ++ [.symbol ')']) rest := by
        rw [parts?, closing]
        exact if_neg closes
    _ = parts? 0 (read ++ .symbol '(' :: (lexemes ++ [.symbol ')'])) rest := by
        simp only [List.append_assoc, List.cons_append, List.nil_append]

end Together

/-- A comma in an expression stands in brackets. -/
theorem Phrase.together {hollow : Prop} {role : Role} (phrase : Phrase hollow role lexemes)
    (expression : role = .expression) : Together lexemes := by
  have figures_together {number : List Lexeme} (figures : Figures number) : Together number := by
    cases figures <;> exact .closed rfl rfl
  induction phrase with
  | single | cons => cases expression
  | constant | text | marked | typed | name | today | rows => exact .closed rfl rfl
  | missing => exact .nil
  | figures figures => exact figures_together figures
  | fraction _ figures => exact .word _ (.cons rfl (by decide) (figures_together figures))
  | bracketed inner => exact .bracketed (inner.level_eq 0)
  | negative _ ih => exact .cons rfl (by decide) (ih rfl)
  | not _ ih => exact .word _ (ih rfl)
  | binary among _ _ left right =>
      have operator : ∀ operator ∈ operators, level 0 operator = some 0 ∧
          operator.all (· != .symbol ',') = true := by decide
      obtain ⟨closed, noComma⟩ := operator _ among
      exact .append (left rfl) (.append (.closed closed noComma) (right rfl))
  | like _ _ _ _ left pattern escape =>
      exact .append (left rfl) (.word _ (.append (pattern rfl) (.word _ (escape rfl))))
  | isNull _ ih | isNotNull _ ih => exact .append (ih rfl) (.closed rfl rfl)
  | among _ members item =>
      exact .append (item rfl) (.word _ (.bracketed (members.level_eq 0)))
  | notAmong _ members item =>
      exact .append (item rfl) (.word _ (.word _ (.bracketed (members.level_eq 0))))
  | call _ operands => exact .word _ (.bracketed (operands.level_eq 0))
  | @timed _ arguments _ operands =>
      have inside : level 0 (.word "MICROSECOND" :: .symbol ',' :: arguments) = some 0 := by
        rw [level_word, level_symbol _ _ (by decide), operands.level_eq]
      exact .word _ (.bracketed inside)
  | @cast type inner _ phrase =>
      have inside : level 0 (inner ++ .word "AS" :: type.map .word) = some 0 := by
        rw [level_append_eq, phrase.level_eq, Option.bind_some, level_word, level_words]
      simpa using Together.word "CAST" (.bracketed inside)
  | @extract part inner _ phrase =>
      have inside : level 0 (.word part :: .word "FROM" :: inner) = some 0 := by
        rw [level_word, level_word, phrase.level_eq]
      exact .word _ (.bracketed inside)

/-! ## Lexemes that declare -/

/-- However the text goes on, the lexemes declare so many keys and draw from these sequences, and
they stand in one part. -/
structure Declares (n : Nat) (drawn : List String) (lexemes : List Lexeme) : Prop where
  keys : ∀ rest, (lexemes ++ rest).tails.countP beginsKey = n + rest.tails.countP beginsKey
  sequences : ∀ rest, drawnSequences (lexemes ++ rest) = drawn ++ drawnSequences rest
  together : Together lexemes

/-- The lexeme begins neither a declaration nor a call for the next value. -/
def Lexeme.isSilent (lexeme : Lexeme) : Bool :=
  !(lexeme.isWord "PRIMARY" || lexeme.isWord "NEXTVAL")

theorem Lexeme.isSilent_of_isFigure {letters : String} (figure : isFigure letters = true) :
    (word letters).isSilent = true := by
  have upper : isFigure (Text.asciiUpper letters) = true := by
    unfold isFigure at figure ⊢
    rw [Text.asciiUpper, String.toList_ofList, List.head?_map, Option.any_map]
    obtain ⟨c, head, digit⟩ := (Option.any_eq_true ..).1 figure
    rw [head]
    exact forall_isDigit (P := fun c => isDigit c.toUpper = true) (by decide) digit
  have other {keyword : String} (noFigure : isFigure keyword = false) :
      (word letters).isWord keyword = false := by
    refine beq_false_of_ne fun same => ?_
    rw [same, noFigure] at upper
    cases upper
  rw [isSilent, other (by decide), other (by decide)]
  rfl

theorem countP_tails_cons (rest : List Lexeme) : (lexeme :: rest).tails.countP beginsKey =
    (if beginsKey (lexeme :: rest) then 1 else 0) + rest.tails.countP beginsKey := by
  rw [List.tails_cons, List.countP_cons, Nat.add_comm]

theorem drawnSequences_cons (rest : List Lexeme) : drawnSequences (lexeme :: rest) =
    (sequence? (lexeme :: rest)).toList ++ drawnSequences rest := by
  unfold drawnSequences
  rw [List.tails_cons, List.filterMap_cons]
  cases sequence? (lexeme :: rest) <;> rfl

theorem beginsKey_of_isSilent (silent : lexeme.isSilent = true) (rest : List Lexeme) :
    beginsKey (lexeme :: rest) = false := by
  rw [Lexeme.isSilent, Bool.not_eq_true', Bool.or_eq_false_iff] at silent
  cases rest with
  | nil => rfl
  | cons second rest => rw [beginsKey, silent.1, Bool.false_and]

theorem sequence?_of_isSilent (silent : lexeme.isSilent = true) (rest : List Lexeme) :
    sequence? (lexeme :: rest) = none := by
  rw [Lexeme.isSilent, Bool.not_eq_true', Bool.or_eq_false_iff] at silent
  unfold sequence?
  split
  · rename_i same
    obtain ⟨rfl, -⟩ := List.cons.inj same
    rw [silent.2, if_neg Bool.false_ne_true]
  · rfl

namespace Declares

theorem nil : Declares 0 [] [] :=
  ⟨fun _ => (Nat.zero_add _).symm, fun _ => rfl, .nil⟩

theorem append (one : Declares n drawn first) (other : Declares m more second) :
    Declares (n + m) (drawn ++ more) (first ++ second) where
  keys rest := by rw [List.append_assoc, one.keys, other.keys, Nat.add_assoc]
  sequences rest := by rw [List.append_assoc, one.sequences, other.sequences, List.append_assoc]
  together := one.together.append other.together

theorem silent (each : lexemes.all Lexeme.isSilent = true) (together : Together lexemes) :
    Declares 0 [] lexemes := by
  refine ⟨fun rest => ?_, fun rest => ?_, together⟩ <;> clear together
  · rw [Nat.zero_add]
    induction lexemes with
    | nil => rfl
    | cons lexeme lexemes ih =>
        rw [List.all_cons, Bool.and_eq_true] at each
        rw [List.cons_append, countP_tails_cons, beginsKey_of_isSilent each.1,
          if_neg Bool.false_ne_true, Nat.zero_add, ih each.2]
  · induction lexemes with
    | nil => rfl
    | cons lexeme lexemes ih =>
        rw [List.all_cons, Bool.and_eq_true] at each
        rw [List.cons_append, drawnSequences_cons, sequence?_of_isSilent each.1, ih each.2]
        rfl

theorem plain (silent : lexemes.all Lexeme.isSilent = true) (closed : level 0 lexemes = some 0)
    (noComma : lexemes.all (· != .symbol ',') = true) : Declares 0 [] lexemes :=
  .silent silent (.closed closed noComma)

theorem primaryKey : Declares 1 [] [.word "PRIMARY", .word "KEY"] where
  keys rest := by
    have primary : beginsKey (.word "PRIMARY" :: .word "KEY" :: rest) = true := by
      rw [beginsKey]
      decide
    have key : beginsKey (.word "KEY" :: rest) = false := beginsKey_of_isSilent (by decide) rest
    rw [List.cons_append, List.singleton_append, countP_tails_cons, countP_tails_cons, primary, key]
    exact congrArg (1 + ·) (Nat.zero_add _)
  sequences rest := by
    have primary : sequence? (.word "PRIMARY" :: .word "KEY" :: rest) = none := rfl
    have key : sequence? (.word "KEY" :: rest) = none := sequence?_of_isSilent (by decide) rest
    rw [List.cons_append, List.singleton_append, drawnSequences_cons, drawnSequences_cons, primary,
      key]
    rfl
  together := .closed rfl rfl

/-- The next value of a sequence. -/
theorem nextValue (sequence : String) : Declares 0 [sequence]
    [.word "nextval", .symbol '(', .text sequence, .symbol ')'] := by
  have inside : Declares 0 [] [.symbol '(', .text sequence, .symbol ')'] := .plain rfl rfl rfl
  refine ⟨fun rest => ?_, fun rest => ?_, ?_⟩
  · have call : beginsKey (.word "nextval" ::
        ([.symbol '(', .text sequence, .symbol ')'] ++ rest)) = false := by
      rw [List.cons_append, beginsKey]
      decide
    rw [List.cons_append, countP_tails_cons, call, inside.keys]
    exact Nat.zero_add _
  · have call : sequence? (.word "nextval" ::
        ([.symbol '(', .text sequence, .symbol ')'] ++ rest)) = some sequence := by
      have named : (Lexeme.word "nextval").isWord "NEXTVAL" = true := by decide
      exact if_pos (e := none) named
    rw [List.cons_append, drawnSequences_cons, call, inside.sequences]
    rfl
  · exact .word _ inside.together

/-- Expressions declare nothing. -/
theorem of_phrase {hollow : Prop} (phrase : Phrase hollow .expression lexemes) :
    Declares 0 [] lexemes := by
  refine .silent (List.all_eq_true.2 fun lexeme member => ?_) (phrase.together rfl)
  have known := List.all_eq_true.1 phrase.all_isKnown lexeme member
  cases lexeme with
  | word letters =>
      rw [Lexeme.isKnown, Bool.or_eq_true] at known
      rcases known with figure | among
      · exact Lexeme.isSilent_of_isFigure figure
      · have words : ∀ letters ∈ phraseWords, (Lexeme.word letters).isSilent = true := by
          decide
        exact words letters (List.contains_iff_mem.1 among)
  | text | name | symbol => rfl

end Declares

/-! ## Parts of tables -/

/-- What a part of a table says: which columns it is about, how many primary keys it declares of
them, and which sequences it draws from. -/
structure TablePart where
  columns : List String
  keys : Nat
  drawn : List String

def TablePart.declarations (p : TablePart) : List (List String) :=
  List.replicate p.keys p.columns

/-- The lexemes say what the part does. -/
structure TablePart.IsRead (p : TablePart) (part : List Lexeme) : Prop where
  declares : Declares p.keys p.drawn part
  columns : columnsOf part = p.columns

namespace TablePart

variable {p : TablePart} {part : List Lexeme} {ps : List TablePart} {parts : List (List Lexeme)}

theorem IsRead.keyDeclarations_eq (isRead : p.IsRead part) :
    keyDeclarations part = p.declarations := by
  have keys := isRead.declares.keys []
  rw [List.append_nil] at keys
  rw [keyDeclarations, keys, isRead.columns]
  rfl

theorem IsRead.drawnSequences_eq (isRead : p.IsRead part) : drawnSequences part = p.drawn := by
  have sequences := isRead.declares.sequences []
  rw [List.append_nil] at sequences
  exact sequences.trans (List.append_nil _)

theorem flatMap_eq {α : Type} {read : List Lexeme → List α} {said : TablePart → List α}
    (same : ∀ p part, IsRead p part → read part = said p) (areRead : List.Forall₂ IsRead ps parts) :
    parts.flatMap read = ps.flatMap said := by
  induction areRead with
  | nil => rfl
  | cons isRead _ ih => rw [List.flatMap_cons, List.flatMap_cons, same _ _ isRead, ih]

end TablePart

/-- Commas between parts separate them. -/
theorem parts?_intercalate {part : List Lexeme} {parts : List (List Lexeme)}
    (together : ∀ other ∈ part :: parts, Together other) (read : List Lexeme) :
    parts? 0 read ([.symbol ','].intercalate (part :: parts) ++ [.symbol ')']) =
      some ((read ++ part) :: parts) := by
  rw [List.forall_mem_cons] at together
  induction parts generalizing part read with
  | nil =>
      rw [List.intercalate_singleton, together.1]
      rfl
  | cons next parts ih =>
      rw [List.forall_mem_cons] at together
      have comma : (Lexeme.symbol ',').shift 0 = some 0 := rfl
      rw [List.intercalate_cons_cons, List.append_assoc, List.append_assoc, together.1,
        List.singleton_append, parts?, comma]
      simp only [and_self, if_true]
      rw [ih together.2 []]
      rfl

/-! ## Enumerations -/

/-- Lexemes with commas between them. -/
def enumeration (items : List Lexeme) : List Lexeme :=
  [.symbol ','].intercalate (items.map fun item => [item])

theorem enumeration_cons_cons (item next : Lexeme) (items : List Lexeme) :
    enumeration (item :: next :: items) = item :: .symbol ',' :: enumeration (next :: items) := by
  unfold enumeration
  rw [List.map_cons, List.map_cons, List.intercalate_cons_cons]
  rfl

theorem level_enumeration {items : List Lexeme} (each : ∀ item ∈ items, item.shift 0 = some 0) :
    level 0 (enumeration items) = some 0 := by
  induction items with
  | nil => rfl
  | cons item items ih =>
      rw [List.forall_mem_cons] at each
      cases items with
      | nil =>
          change level 0 [item] = some 0
          rw [level, List.foldlM_cons, each.1]
          rfl
      | cons next items =>
          rw [enumeration_cons_cons, level, List.foldlM_cons, each.1]
          exact ih each.2

theorem all_isSilent_enumeration {items : List Lexeme}
    (each : items.all Lexeme.isSilent = true) :
    (enumeration items).all Lexeme.isSilent = true := by
  induction items with
  | nil => rfl
  | cons item items ih =>
      cases items with
      | nil => exact each
      | cons next items =>
          rw [List.all_cons, Bool.and_eq_true] at each
          rw [enumeration_cons_cons, List.all_cons, List.all_cons, each.1, ih each.2]
          rfl

theorem flatMap_path_enumeration (items : List Lexeme) :
    (enumeration items).flatMap Lexeme.path = items.flatMap Lexeme.path := by
  induction items with
  | nil => rfl
  | cons item items ih =>
      cases items with
      | nil => rfl
      | cons next items =>
          rw [enumeration_cons_cons, List.flatMap_cons, List.flatMap_cons, ih]
          rfl

/-- An enumeration in brackets declares nothing. -/
theorem Declares.enumerated {items : List Lexeme} (silent : items.all Lexeme.isSilent = true)
    (closed : ∀ item ∈ items, item.shift 0 = some 0) :
    Declares 0 [] (.symbol '(' :: (enumeration items ++ [.symbol ')'])) := by
  refine .silent ?_ (.bracketed (level_enumeration closed))
  rw [List.all_cons, List.all_append, all_isSilent_enumeration silent]
  rfl

end RowQuery.Sql
