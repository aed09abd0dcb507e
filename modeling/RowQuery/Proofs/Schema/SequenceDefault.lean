import Mathlib.Data.List.TakeWhile
import RowQuery.Proofs.Number.Reading
import RowQuery.Proofs.Sql.Quotation
import RowQuery.Schema.Discovery

/-!
# Defaults that draw from a sequence

The default of a generated column has the name of its sequence between double quotes, and these
between single ones; each mark is doubled where it stands inside.  The name is read back up to the
next single quote, without the double quotes at its ends, and nothing that was doubled is halved
again.  So it comes back exactly if there is no quote in the names that it is made of.
-/

namespace RowQuery

open RowQuery.Sql

namespace Text

variable {m c : Char} {text : List Char}

/-- Every occurrence of a mark that is doubled adds a character. -/
theorem length_replaceChar_double (m : Char) (text : List Char) :
    (replaceChar m [m, m] text).length = text.length + text.count m := by
  induction text with
  | nil => rfl
  | cons c text ih =>
      rw [replaceChar] at ih ⊢
      rw [List.flatMap_cons, List.length_append, ih, List.count_cons, List.length_cons]
      by_cases mark : c = m <;> simp [mark] <;> omega

/-- Nothing is doubled in a text without marks, and only there. -/
theorem replaceChar_double_eq_self_iff : replaceChar m [m, m] text = text ↔ m ∉ text := by
  refine ⟨fun same member => ?_, fun absent => ?_⟩
  · have grown := congrArg List.length same
    rw [length_replaceChar_double] at grown
    have := List.count_pos_iff.2 member
    omega
  · rw [← Quotation.doubled_eq_replaceChar]
    refine Quotation.doubled_of_plain fun c member => ?_
    have other : c ≠ m := fun mark => absent (mark ▸ member)
    simp [Quotation.isSpecial, other]

theorem head?_replaceChar_double (m : Char) (text : List Char) :
    (replaceChar m [m, m] text).head? = text.head? := by
  cases text with
  | nil => rfl
  | cons c text => by_cases mark : c = m <;> simp [replaceChar, mark]

theorem getLast?_replaceChar_double (m : Char) (text : List Char) :
    (replaceChar m [m, m] text).getLast? = text.getLast? := by
  have mirrored : (replaceChar m [m, m] text).reverse = replaceChar m [m, m] text.reverse := by
    rw [replaceChar, replaceChar, List.reverse_flatMap]
    refine congrArg (List.flatMap · text.reverse) (funext fun c => ?_)
    by_cases mark : c = m <;> simp [mark]
  rw [List.getLast?_eq_head?_reverse, mirrored, head?_replaceChar_double,
    List.getLast?_eq_head?_reverse]

/-- A text whose marks are doubled is cut at the first mark, if there is one, or behind. -/
theorem exists_cutAt?_double (m : Char) (text rest : List Char) :
    ∃ after, cutAt? (· == m) (replaceChar m [m, m] text ++ m :: rest) =
      some (text.takeWhile (· != m), after) := by
  induction text with
  | nil => exact ⟨rest, by simp [replaceChar, cutAt?]⟩
  | cons c text ih =>
      by_cases mark : c = m
      · exact ⟨m :: (replaceChar m [m, m] text ++ m :: rest), by simp [replaceChar, cutAt?, mark]⟩
      · obtain ⟨after, cut⟩ := ih
        refine ⟨after, ?_⟩
        rw [replaceChar] at cut ⊢
        simp [cutAt?, mark, cut]

theorem mem_replaceChar_double : c ∈ replaceChar m [m, m] text ↔ c ∈ text := by
  induction text with
  | nil => rfl
  | cons a text ih =>
      rw [replaceChar] at ih ⊢
      rw [List.flatMap_cons, List.mem_append, ih, List.mem_cons]
      by_cases mark : a = m <;> simp [mark]

theorem mem_of_mem_dropEndWhile {test : Char → Bool} (member : c ∈ dropEndWhile test text) :
    c ∈ text := by
  rw [dropEndWhile, List.mem_reverse] at member
  exact List.mem_reverse.1 ((List.dropWhile_sublist _).subset member)

end Text

namespace Discovery

variable {text : List Char}

/-! ## Marks at the ends -/

/-- A name between double quotes. -/
def quotedName (name : List Char) : List Char :=
  '"' :: (Text.replaceChar '"' ['"', '"'] name ++ ['"'])

theorem mem_of_mem_trimQuotes {c : Char} (member : c ∈ trimQuotes text) : c ∈ text :=
  (List.dropWhile_sublist _).subset (Text.mem_of_mem_dropEndWhile member)

theorem head?_trimQuotes (text : List Char) : (trimQuotes text).head? ≠ some '"' := by
  intro first
  have stripped := List.head?_dropWhile_not (· == '"') text
  have begins : (text.dropWhile (· == '"')).head? = some '"' := by
    obtain ⟨rest, whole⟩ : trimQuotes text <+: text.dropWhile (· == '"') := by
      rw [trimQuotes, Text.dropEndWhile, ← List.reverse_suffix, List.reverse_reverse]
      exact List.dropWhile_suffix _
    rw [← whole, List.head?_append, first]
    rfl
  rw [begins] at stripped
  simp at stripped

/-- Only the double quotes at the ends are dropped, not those that are doubled inside. -/
theorem trimQuotes_quotedName (present : text ≠ []) (first : text.head? ≠ some '"')
    (last : text.getLast? ≠ some '"') :
    trimQuotes (quotedName text) = Text.replaceChar '"' ['"', '"'] text := by
  rw [quotedName]
  have begins := Text.head?_replaceChar_double '"' text
  have ends := Text.getLast?_replaceChar_double '"' text
  generalize Text.replaceChar '"' ['"', '"'] text = inside at begins ends
  have front : (inside ++ ['"']).dropWhile (· == '"') = inside ++ ['"'] := by
    refine Text.dropWhile_of_head fun c head => ?_
    obtain ⟨a, text, rfl⟩ := List.exists_cons_of_ne_nil present
    rw [List.head?_append, begins] at head
    cases head
    rw [beq_eq_false_iff_ne]
    rintro rfl
    exact first rfl
  have back : inside.reverse.dropWhile (· == '"') = inside.reverse := by
    refine Text.dropWhile_of_head fun c head => ?_
    rw [← List.getLast?_eq_head?_reverse, ends] at head
    rw [beq_eq_false_iff_ne]
    rintro rfl
    exact last head
  rw [trimQuotes, List.dropWhile_cons_of_pos (by rfl), front, Text.dropEndWhile,
    List.reverse_append, List.reverse_singleton, List.singleton_append,
    List.dropWhile_cons_of_pos (by rfl), back, List.reverse_reverse]

/-! ## What is read -/

/-- The default of a sequence, with a cast behind its name or without one. -/
def sequenceText (cast name : String) : String :=
  callText "nextval" [Dialect.postgres.quoteText (Dialect.postgres.quoteName name) ++ cast]

theorem sequenceText_plain (name : String) :
    sequenceText "" name = Dialect.postgres.sequenceDefault name := by
  simp [sequenceText, Dialect.sequenceDefault]

theorem toList_sequenceText (cast name : String) :
    (sequenceText cast name).toList =
      "nextval(".toList ++ '\'' :: (Text.replaceChar '\'' ['\'', '\''] (quotedName name.toList) ++
        '\'' :: (cast.toList ++ [')'])) := by
  simp [sequenceText, callText, Text.join, Dialect.postgres, enclose, quotedName]

/-- The name is read up to the first single quote in it. -/
theorem sequenceOf?_sequenceText (cast name : String) :
    sequenceOf? (sequenceText cast name) =
      some (String.ofList (trimQuotes ((quotedName name.toList).takeWhile (· != '\'')))) := by
  obtain ⟨after, cut⟩ := Text.exists_cutAt?_double '\'' (quotedName name.toList)
    (cast.toList ++ [')'])
  have trimmed : Text.trimChars (sequenceText cast name).toList =
      (sequenceText cast name).toList := by
    have closing : (sequenceText cast name).toList.getLast? = some ')' := by
      simp [toList_sequenceText, List.getLast?_cons, List.getLast?_append]
    refine Text.trimChars_of_ends ?_ ?_
    · rw [toList_sequenceText]
      rintro c ⟨⟩
      rfl
    · rw [closing]
      rintro c ⟨⟩
      rfl
  have called (rest : List Char) :
      Text.dropFront? "nextval(".toList ("nextval(".toList ++ rest) = some rest := by
    simp [Text.dropFront?]
  rw [sequenceOf?, trimmed, toList_sequenceText, called]
  simp [Text.cutAt?, cut]

/-! ## Names that come back -/

/-- A name comes back if it has no quote inside.  A double one stays doubled, or is dropped with
those around the name; what is behind a single one is not read. -/
theorem trimQuotes_takeWhile_eq_iff (present : text ≠ []) (last : text.getLast? ≠ some '"') :
    trimQuotes ((quotedName text).takeWhile (· != '\'')) = text ↔ '\'' ∉ text ∧ '"' ∉ text := by
  have whole (single : '\'' ∉ text) :
      (quotedName text).takeWhile (· != '\'') = quotedName text := by
    rw [List.takeWhile_eq_self_iff]
    intro c member
    rw [bne_iff_ne]
    rintro rfl
    simp [quotedName, Text.mem_replaceChar_double, single] at member
  refine ⟨fun same => ?_, fun ⟨single, double⟩ => ?_⟩
  · have single : '\'' ∉ text := by
      intro member
      rw [← same] at member
      simpa using List.mem_takeWhile_imp (mem_of_mem_trimQuotes member)
    rw [whole single] at same
    have first : text.head? ≠ some '"' := same ▸ head?_trimQuotes _
    rw [trimQuotes_quotedName present first last, Text.replaceChar_double_eq_self_iff] at same
    exact ⟨single, same⟩
  · have first : text.head? ≠ some '"' := fun head => double (List.mem_of_mem_head? head)
    rw [whole single, trimQuotes_quotedName present first last,
      Text.replaceChar_double_eq_self_iff]
    exact double

/-- No quote of either kind occurs in a text. -/
def Unquoted (text : String) : Prop :=
  '\'' ∉ text.toList ∧ '"' ∉ text.toList

/-- The default of a generated key names a sequence, with a cast or without one.  It is the one
that the key draws from exactly if there is no quote in the names of the table and the column. -/
theorem sequence_default_read_back_iff (table column : String) :
    ∃ name found, Dialect.postgres.sequenceName table column = some name ∧
      sequenceOf? (Dialect.postgres.sequenceDefault name) = some found ∧
      (∀ cast, sequenceOf? (sequenceText cast name) = some found) ∧
      (found = name ↔ Unquoted table ∧ Unquoted column) := by
  refine ⟨_, _, rfl, ?_, fun cast => sequenceOf?_sequenceText cast _, ?_⟩
  · rw [← sequenceText_plain, sequenceOf?_sequenceText]
  · have made : (table ++ "_" ++ column ++ "_seq").toList =
        table.toList ++ '_' :: (column.toList ++ ['_', 's', 'e', 'q']) := by
      simp
    have last : (table ++ "_" ++ column ++ "_seq").toList.getLast? ≠ some '"' := by
      simp [made, List.getLast?_cons, List.getLast?_append]
    rw [← String.toList_inj, String.toList_ofList,
      trimQuotes_takeWhile_eq_iff (by simp [made]) last]
    simp [Unquoted, made, and_and_and_comm]

example : sequenceOf? (sequenceText "::regclass" "o'brien_id_seq") = some "o" := by
  decide +kernel

end Discovery

end RowQuery
