import Mathlib.Data.List.Basic
import Mathlib.Data.List.TakeWhile
import RowQuery.Proofs.Number.Reading

/-!
# Words and the blanks between them

A text has certain words exactly if it is these words with blanks between them, and perhaps around
them.  Trimming leaves the words as they are.
-/

namespace RowQuery.Text

/-- A text is made of the words, with blanks between any two of them and perhaps around them. -/
inductive Spaced : List (List Char) → List Char → Prop
  | blank {gap : List Char} (blank : ∀ c ∈ gap, isBlank c = true) : Spaced [] gap
  | word {gap word rest : List Char} {words : List (List Char)}
      (blank : ∀ c ∈ gap, isBlank c = true) (nonempty : word ≠ [])
      (unblank : ∀ c ∈ word, isBlank c = false) (apart : ∀ c ∈ rest.head?, isBlank c = true)
      (others : Spaced words rest) : Spaced (word :: words) (gap ++ word ++ rest)

namespace Spaced

variable {text gap : List Char} {ws : List (List Char)}

/-- Blanks may stand in front. -/
theorem blank_append (blank : ∀ c ∈ gap, isBlank c = true) (spaced : Spaced ws text) :
    Spaced ws (gap ++ text) := by
  cases spaced with
  | blank more => exact .blank (List.forall_mem_append.mpr ⟨blank, more⟩)
  | word more nonempty unblank apart others =>
      rw [← List.append_assoc, ← List.append_assoc]
      exact .word (List.forall_mem_append.mpr ⟨blank, more⟩) nonempty unblank apart others

/-- Two texts are put together with blanks between them. -/
theorem append {ws' : List (List Char)} {text' : List Char} (spaced : Spaced ws text)
    (nonempty : gap ≠ []) (blank : ∀ c ∈ gap, isBlank c = true) (spaced' : Spaced ws' text') :
    Spaced (ws ++ ws') (text ++ gap ++ text') := by
  induction spaced with
  | blank front =>
      exact spaced'.blank_append (List.forall_mem_append.mpr ⟨front, blank⟩)
  | @word front word rest words more some unblank apart others ih =>
      have follows : front ++ word ++ rest ++ gap ++ text' =
          front ++ word ++ (rest ++ gap ++ text') := by simp only [List.append_assoc]
      rw [follows]
      refine .word more some unblank (fun c first => ?_) ih
      rw [List.append_assoc, List.head?_append, Option.mem_def, Option.or_eq_some_iff] at first
      rcases first with first | ⟨-, first⟩
      · exact apart c first
      · rw [List.head?_append_of_ne_nil _ nonempty] at first
        exact blank c (List.mem_of_mem_head? first)

/-- Blanks may stand behind. -/
theorem append_blank (spaced : Spaced ws text) (blank : ∀ c ∈ gap, isBlank c = true) :
    Spaced ws (text ++ gap) := by
  rcases List.eq_nil_or_concat gap with rfl | ⟨front, last, rfl⟩
  · rwa [List.append_nil]
  · have joined := spaced.append (by simp) blank (.blank (List.forall_mem_nil _))
    rwa [List.append_nil, List.append_nil] at joined

/-- A text that does not begin with a blank begins with its first word. -/
theorem exists_append {word : List Char} (spaced : Spaced (word :: ws) text)
    (first : ∀ c ∈ text.head?, isBlank c = false) :
    ∃ rest, text = word ++ rest ∧ Spaced ws rest ∧ ∀ c ∈ rest.head?, isBlank c = true := by
  cases spaced with
  | @word gap _ rest _ blank nonempty unblank apart others =>
      have none : gap = [] := by
        cases gap with
        | nil => rfl
        | cons c gap =>
            have unblank := first c rfl
            rw [blank c List.mem_cons_self] at unblank
            cases unblank
      rw [none, List.nil_append]
      exact ⟨rest, rfl, others, apart⟩

theorem of_mem (spaced : Spaced ws text) :
    ∀ word ∈ ws, word ≠ [] ∧ ∀ c ∈ word, isBlank c = false := by
  induction spaced with
  | blank => simp
  | word _ nonempty unblank _ _ ih =>
      rw [List.forall_mem_cons]
      exact ⟨⟨nonempty, unblank⟩, ih⟩

end Spaced

/-- A run goes on over characters that fail the test. -/
theorem splitRuns_append {test : Char → Bool} {run : List Char} (rest current : List Char)
    (kept : ∀ c ∈ run, test c = false) :
    splitRuns test (run ++ rest) current = splitRuns test rest (run.reverse ++ current) := by
  induction run generalizing current with
  | nil => rfl
  | cons c run ih =>
      rw [List.forall_mem_cons] at kept
      rw [List.cons_append, splitRuns, kept.1, if_neg Bool.false_ne_true, ih _ kept.2]
      simp

/-- The words of a text are spaced. -/
theorem spaced_splitRuns (text : List Char) {current : List Char}
    (unblank : ∀ c ∈ current, isBlank c = false) :
    Spaced (splitRuns isBlank text current) (current.reverse ++ text) := by
  have unblank' : ∀ c ∈ current.reverse, isBlank c = false := by simpa using unblank
  induction text generalizing current with
  | nil =>
      rw [splitRuns]
      split
      · rename_i none
        rw [List.isEmpty_iff.mp none]
        exact .blank (by simp)
      · rename_i some
        have nonempty : current.reverse ≠ [] := by simpa using some
        exact .word (List.forall_mem_nil _) nonempty unblank' (by simp)
          (.blank (List.forall_mem_nil _))
  | cons c text ih =>
      rw [splitRuns]
      by_cases blank : isBlank c = true
      · have rest : Spaced (splitRuns isBlank text []) text :=
          ih (List.forall_mem_nil _) (List.forall_mem_nil _)
        have others : Spaced (splitRuns isBlank text []) (c :: text) :=
          rest.blank_append (List.forall_mem_singleton.mpr blank)
        rw [if_pos blank]
        split
        · rename_i none
          rwa [List.isEmpty_iff.mp none]
        · rename_i some
          have nonempty : current.reverse ≠ [] := by simpa using some
          exact .word (List.forall_mem_nil _) nonempty unblank' (by simpa using blank) others
      · rw [if_neg blank]
        have longer : ∀ b ∈ c :: current, isBlank b = false :=
          List.forall_mem_cons.mpr ⟨by simpa using blank, unblank⟩
        have spaced := ih longer fun b member => longer b (List.mem_reverse.mp member)
        rwa [List.reverse_cons, List.append_assoc] at spaced

/-- A text has certain words exactly if it is made of them. -/
theorem words_eq_iff {text : List Char} {ws : List (List Char)} :
    words text = ws ↔ Spaced ws text := by
  constructor
  · rintro rfl
    exact spaced_splitRuns text (List.forall_mem_nil _)
  · intro spaced
    have skip {gap : List Char} (rest : List Char) (blank : ∀ c ∈ gap, isBlank c = true) :
        words (gap ++ rest) = words rest := by
      induction gap with
      | nil => rfl
      | cons c gap ih =>
          rw [List.forall_mem_cons] at blank
          rw [List.cons_append, words, splitRuns, blank.1]
          exact ih blank.2
    induction spaced with
    | blank blank =>
        have none := skip [] blank
        rw [List.append_nil] at none
        exact none
    | @word gap word rest ws blank nonempty unblank apart others ih =>
        have run : word.reverse.isEmpty = false := by simpa using nonempty
        rw [List.append_assoc, skip _ blank, words, splitRuns_append _ _ unblank, List.append_nil]
        cases rest with
        | nil =>
            obtain rfl : ws = [] := ih.symm
            rw [splitRuns, run, if_neg Bool.false_ne_true, List.reverse_reverse]
        | cons c rest =>
            have blank : isBlank c = true := apart c rfl
            have same : splitRuns isBlank rest [] = ws := by
              rw [← ih, words, splitRuns, blank]
              rfl
            rw [splitRuns, blank, if_pos rfl, run, if_neg Bool.false_ne_true, List.reverse_reverse,
              same]

/-- A text without blanks is one word. -/
theorem words_of_unblank {text : List Char} (nonempty : text ≠ [])
    (unblank : ∀ c ∈ text, isBlank c = false) : words text = [text] := by
  have spaced := Spaced.word (List.forall_mem_nil _) nonempty unblank (by simp)
    (.blank (List.forall_mem_nil _))
  rw [List.nil_append, List.append_nil] at spaced
  exact words_eq_iff.mpr spaced

/-- A text that begins without blanks has a word that begins so. -/
theorem exists_words_append {run : List Char} (nonempty : run ≠ [])
    (unblank : ∀ c ∈ run, isBlank c = false) (rest : List Char) :
    ∃ more others, words (run ++ rest) = (run ++ more) :: others := by
  have go {current : List Char} (nonempty : current ≠ []) :
      ∃ more others, splitRuns isBlank rest current = (current.reverse ++ more) :: others := by
    induction rest generalizing current with
    | nil => exact ⟨[], [], by simp [splitRuns, nonempty]⟩
    | cons c rest ih =>
        by_cases blank : isBlank c = true
        · exact ⟨[], splitRuns isBlank rest [], by simp [splitRuns, blank, nonempty]⟩
        · obtain ⟨more, others, split⟩ := ih (List.cons_ne_nil c current)
          exact ⟨c :: more, others, by simp [splitRuns, blank, split]⟩
  have reversed : run.reverse ≠ [] := by simpa using nonempty
  obtain ⟨more, others, split⟩ := go reversed
  refine ⟨more, others, ?_⟩
  rw [words, splitRuns_append _ _ unblank, List.append_nil, split, List.reverse_reverse]

/-- Trimming takes blanks away in front and behind. -/
theorem exists_trimChars (text : List Char) : ∃ front back : List Char,
    text = front ++ trimChars text ++ back ∧ (∀ c ∈ front, isBlank c = true) ∧
      ∀ c ∈ back, isBlank c = true := by
  have ends :=
    List.takeWhile_append_dropWhile (p := isBlank) (l := (text.dropWhile isBlank).reverse)
  refine ⟨text.takeWhile isBlank,
    ((text.dropWhile isBlank).reverse.takeWhile isBlank).reverse, ?_,
    fun c member => List.mem_takeWhile_imp member,
    fun c member => List.mem_takeWhile_imp (List.mem_reverse.mp member)⟩
  rw [trimChars, stripWhile, List.append_assoc, ← List.reverse_append, ends, List.reverse_reverse,
    List.takeWhile_append_dropWhile]

/-- A trimmed text does not begin with a blank. -/
theorem unblank_head_trimChars (text : List Char) :
    ∀ c ∈ (trimChars text).head?, isBlank c = false := by
  intro c first
  have front : trimChars text <+: text.dropWhile isBlank := by
    rw [trimChars, stripWhile, ← List.reverse_suffix, List.reverse_reverse]
    exact List.dropWhile_suffix _
  obtain ⟨rest, whole⟩ := front
  have first : (text.dropWhile isBlank).head? = some c := by
    rw [← whole, List.head?_append, first]
    rfl
  rw [← List.find?_not_eq_head?_dropWhile] at first
  simpa using List.find?_some first

theorem words_trimChars (text : List Char) : words (trimChars text) = words text := by
  obtain ⟨front, back, whole, blank, blank'⟩ := exists_trimChars text
  have spaced : Spaced (words (trimChars text)) (trimChars text) := words_eq_iff.mp rfl
  have wider := (spaced.blank_append blank).append_blank blank'
  rw [← whole] at wider
  exact (words_eq_iff.mpr wider).symm

end RowQuery.Text
