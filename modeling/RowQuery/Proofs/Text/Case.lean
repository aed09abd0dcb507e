import Mathlib.Data.List.Infix
import RowQuery.Function.Affix

/-!
# Full and ASCII case conversion

Some databases convert the letters from A to Z only.  Texts that are equal in lower case by the
Unicode standard are then equal too, if their letters fold alike: letters with a lower-case letter
in common differ at most in the case of an ASCII letter.  Next to an ASCII text only two letters
do not, the Kelvin sign and the capital I with a dot above.
-/

namespace RowQuery.Text

open CaseTable

/-- The characters that the lower-case form of a character is made of in some context. -/
def caseForms (c : Char) : List Char :=
  if c = 'Σ' then ['σ', 'ς'] else lowerChar c

/-- The length of the lower-case form. -/
def caseLength (c : Char) : Nat :=
  if c = 'Σ' then 1 else (lowerChar c).length

/-- Letters of two texts that share a lower-case letter differ at most in ASCII case. -/
def FoldsAlike (text piece : List Char) : Prop :=
  ∀ a ∈ text, ∀ b ∈ piece, ∀ x ∈ caseForms a, x ∈ caseForms b → a.toLower = b.toLower

theorem FoldsAlike.tail {a b : Char} {text piece : List Char}
    (alike : FoldsAlike (a :: text) (b :: piece)) : FoldsAlike text piece :=
  fun a member b among => alike a (List.mem_cons_of_mem _ member) b (List.mem_cons_of_mem _ among)

/-! ## Single characters -/

section Characters

variable {a b c : Char}

theorem toLower_of_far (far : 128 ≤ c.toNat) : c.toLower = c := by
  refine dif_neg fun upper => ?_
  have bound : c.toNat ≤ 'Z'.toNat := UInt32.le_iff_toNat_le.1 upper.2
  exact absurd (far.trans bound) (by decide)

theorem toLower_near (near : c.toNat < 128) : c.toLower.toNat < 128 := by
  have each : ∀ n < 128, (Char.ofNat n).toLower.toNat < 128 := by decide
  simpa only [Char.ofNat_toNat] using each c.toNat near

/-- ASCII conversion keeps to ASCII. -/
theorem toLower_near_iff : c.toLower.toNat < 128 ↔ c.toNat < 128 := by
  refine ⟨fun near => Nat.lt_of_not_le fun far => ?_, toLower_near⟩
  rw [toLower_of_far far] at near
  omega

theorem caseForms_of_near (near : c.toNat < 128) : caseForms c = [c.toLower] := by
  have noSigma : c ≠ 'Σ' := by
    rintro rfl
    exact absurd near (by decide)
  rw [caseForms, if_neg noSigma, lowerChar, if_pos near]

theorem caseLength_of_near (near : c.toNat < 128) : caseLength c = 1 := by
  have noSigma : c ≠ 'Σ' := by
    rintro rfl
    exact absurd near (by decide)
  rw [caseLength, if_neg noSigma, lowerChar, if_pos near]
  rfl

/-- Only one letter has a lower-case form of several characters. -/
theorem lowerChar_of_far (far : 128 ≤ c.toNat) :
    lowerChar c = if c = '\u0130' then ['i', '\u0307']
      else [Char.ofNat (mapByRuns lowerRuns c.toNat)] := by
  rw [lowerChar, if_neg (Nat.not_lt.2 far), mapCase, lowerFull]
  by_cases dotted : c = '\u0130'
  · subst dotted
    rfl
  · have other : (c.toNat == 304) = false := by
      refine beq_eq_false_iff_ne.2 fun same => dotted ?_
      rw [← Char.ofNat_toNat c, same]
    rw [if_neg dotted, List.lookup_cons, other]
    rfl

theorem caseLength_pos (c : Char) : 0 < caseLength c := by
  by_cases near : c.toNat < 128
  · rw [caseLength_of_near near]
    exact Nat.one_pos
  · rw [caseLength, lowerChar_of_far (Nat.le_of_not_lt near)]
    split
    · exact Nat.one_pos
    · split <;> simp

/-- Characters that differ at most in ASCII case have forms of the same length. -/
theorem caseLength_congr (same : a.toLower = b.toLower) : caseLength a = caseLength b := by
  have both : a.toNat < 128 ↔ b.toNat < 128 := by rw [← toLower_near_iff, same, toLower_near_iff]
  by_cases near : a.toNat < 128
  · rw [caseLength_of_near near, caseLength_of_near (both.1 near)]
  · rw [toLower_of_far (Nat.le_of_not_lt near),
      toLower_of_far (Nat.le_of_not_lt (near ∘ both.2))] at same
    rw [same]

end Characters

/-! ## Texts -/

section Texts

variable {seen seen' text piece front behind : List Char}

theorem exists_lowerFrom_cons (seen : List Char) (c : Char) (text : List Char) :
    ∃ form, lowerFrom seen (c :: text) = form ++ lowerFrom (c :: seen) text ∧
      form.length = caseLength c ∧ ∀ x ∈ form, x ∈ caseForms c := by
  rw [lowerFrom, caseForms, caseLength]
  refine ⟨_, rfl, ?_⟩
  split
  · split <;> simp
  · simp

theorem lowerFrom_eq_nil_iff : lowerFrom seen text = [] ↔ text = [] := by
  cases text with
  | nil => simp [lowerFrom]
  | cons c text =>
      obtain ⟨form, whole, length, -⟩ := exists_lowerFrom_cons seen c text
      have present : form ≠ [] := by
        rintro rfl
        exact absurd length.symm (caseLength_pos c).ne'
      simp [whole, present]

theorem lowerFrom_cons_of_near {c : Char} (near : c.toNat < 128) :
    lowerFrom seen (c :: text) = c.toLower :: lowerFrom (c :: seen) text := by
  have noSigma : c ≠ 'Σ' := by
    rintro rfl
    exact absurd near (by decide)
  rw [lowerFrom, if_neg noSigma, lowerChar, if_pos near, List.singleton_append]

/-- Letters that fold alike are the same where their lower-case forms begin alike. -/
theorem exists_front_of_lowerFrom (alike : FoldsAlike text piece)
    (same : lowerFrom seen text = lowerFrom seen' piece ++ behind) :
    ∃ first rest, text = first ++ rest ∧ first.map Char.toLower = piece.map Char.toLower ∧
      (behind = [] → rest = []) := by
  induction piece generalizing text seen seen' with
  | nil =>
      refine ⟨[], text, rfl, rfl, ?_⟩
      rintro rfl
      exact lowerFrom_eq_nil_iff.1 same
  | cons b piece ih =>
      obtain ⟨form', whole', length', forms'⟩ := exists_lowerFrom_cons seen' b piece
      cases text with
      | nil =>
          have empty : form' = [] := by
            rw [whole', List.append_assoc] at same
            exact (List.append_eq_nil_iff.1 same.symm).1
          rw [empty] at length'
          exact absurd length'.symm (caseLength_pos b).ne'
      | cons a text =>
          obtain ⟨form, whole, length, forms⟩ := exists_lowerFrom_cons seen a text
          rw [whole, whole', List.append_assoc] at same
          have letters : a.toLower = b.toLower := by
            match form, form', length, length' with
            | [], _, length, _ => exact absurd length.symm (caseLength_pos a).ne'
            | _, [], _, length' => exact absurd length'.symm (caseLength_pos b).ne'
            | x :: form, y :: form', _, _ =>
                obtain rfl : x = y := (List.cons.inj same).1
                exact alike a (by simp) b (by simp) x (forms x (by simp)) (forms' x (by simp))
          obtain ⟨-, later⟩ := List.append_inj same
            (by rw [length, length', caseLength_congr letters])
          obtain ⟨first, rest, rfl, folded, ended⟩ := ih alike.tail later
          exact ⟨a :: first, rest, rfl, by simp [letters, folded], ended⟩

/-- A character that only forms of length one contain begins the form of a later part. -/
theorem exists_behind_of_lowerFrom {y : Char} {rest : List Char}
    (single : ∀ a ∈ text, y ∈ caseForms a → caseLength a = 1)
    (same : lowerFrom seen text = front ++ y :: rest) :
    ∃ first later seen', text = first ++ later ∧ lowerFrom seen' later = y :: rest := by
  induction text generalizing seen front with
  | nil => simp [lowerFrom] at same
  | cons a text ih =>
      have ih := fun {seen front} => @ih seen front fun a member =>
        single a (List.mem_cons_of_mem _ member)
      cases front with
      | nil => exact ⟨[], a :: text, seen, rfl, same⟩
      | cons x front =>
          obtain ⟨form, whole, length, forms⟩ := exists_lowerFrom_cons seen a text
          rw [whole] at same
          rcases List.append_eq_append_iff.1 same with ⟨more, -, tail⟩ | ⟨more, split, tail⟩
          · obtain ⟨first, later, seen', rfl, found⟩ := ih tail
            exact ⟨a :: first, later, seen', rfl, found⟩
          · cases more with
            | nil =>
                have tail : lowerFrom (a :: seen) text = [] ++ y :: rest := tail.symm
                obtain ⟨first, later, seen', rfl, found⟩ := ih tail
                exact ⟨a :: first, later, seen', rfl, found⟩
            | cons y' more =>
                obtain rfl : y = y' := (List.cons.inj tail).1
                have one := single a (by simp) (forms y (by simp [split]))
                rw [← length, split] at one
                simp at one

theorem FoldsAlike.of_append (alike : FoldsAlike (front ++ text) piece) : FoldsAlike text piece :=
  fun a member => alike a (List.mem_append_right _ member)

/-- An ASCII character is in the lower-case form of a letter that folds alike only by itself. -/
theorem FoldsAlike.single {b : Char} (alike : FoldsAlike text (b :: piece)) (near : b.toNat < 128) :
    ∀ a ∈ text, b.toLower ∈ caseForms a → caseLength a = 1 := by
  intro a member form
  have own : b.toLower ∈ caseForms b := by
    rw [caseForms_of_near near]
    exact List.mem_singleton_self _
  rw [caseLength_congr (alike a member b (by simp) _ form own), caseLength_of_near near]

/-- Where the lower-case form of an ASCII text occurs, the text itself does up to ASCII case. -/
theorem exists_infix_of_lowerFrom {b : Char} (ascii : ∀ c ∈ b :: piece, c.toNat < 128)
    (alike : FoldsAlike text (b :: piece))
    (same : lowerFrom seen text = front ++ (lowerFrom seen' (b :: piece) ++ behind)) :
    ∃ first middle rest, text = first ++ (middle ++ rest) ∧
      middle.map Char.toLower = (b :: piece).map Char.toLower ∧
      (front = [] → first = []) ∧ (behind = [] → rest = []) := by
  by_cases empty : front = []
  · rw [empty, List.nil_append] at same
    obtain ⟨middle, rest, split, folded, ended⟩ := exists_front_of_lowerFrom alike same
    exact ⟨[], middle, rest, split, folded, fun _ => rfl, ended⟩
  · have near := ascii b (by simp)
    have begins : lowerFrom seen' (b :: piece) = b.toLower :: lowerFrom (b :: seen') piece :=
      lowerFrom_cons_of_near near
    have there : lowerFrom seen text =
        front ++ b.toLower :: (lowerFrom (b :: seen') piece ++ behind) := by
      rw [same, begins, List.cons_append]
    obtain ⟨first, later, seen'', rfl, found⟩ :=
      exists_behind_of_lowerFrom (alike.single near) there
    rw [← List.cons_append, ← begins] at found
    obtain ⟨middle, rest, rfl, folded, ended⟩ := exists_front_of_lowerFrom alike.of_append found
    exact ⟨first, middle, rest, rfl, folded, fun absent => absurd absent empty, ended⟩

/-- The full conversion of ASCII texts is that of the letters from A to Z. -/
theorem lowerFrom_of_ascii (ascii : ∀ c ∈ text, c.toNat < 128) :
    lowerFrom seen text = text.map Char.toLower := by
  induction text generalizing seen with
  | nil => rfl
  | cons c text ih =>
      rw [lowerFrom_cons_of_near (ascii c (by simp)),
        ih fun c member => ascii c (List.mem_cons_of_mem _ member)]
      rfl

end Texts

/-! ## Letters outside of ASCII with ASCII letters in lower case -/

section Letters

/-- The runs of letters outside of ASCII lead outside of ASCII, apart from that of the Kelvin
sign. -/
theorem lowerRuns_far : ∀ run ∈ lowerRuns, run.2.1 < 128 ∨ run = (8490, 8490, 1, -8383) ∨
    128 ≤ (run.1 : Int) + run.2.2.2 ∧ ((run.2.1 : Int) + run.2.2.2 < 0xD800 ∨
      0xE000 ≤ (run.1 : Int) + run.2.2.2 ∧ (run.2.1 : Int) + run.2.2.2 < 0x110000) := by
  decide +kernel

theorem toNat_ofNat {point : Nat} (valid : point.isValidChar) :
    (Char.ofNat point).toNat = point := by
  rw [Char.ofNat, dif_pos valid]
  rfl

theorem mapByRuns_far {point : Nat} (far : 128 ≤ point) (valid : point.isValidChar) :
    point = 8490 ∧ mapByRuns lowerRuns point = 107 ∨
      128 ≤ mapByRuns lowerRuns point ∧ (mapByRuns lowerRuns point).isValidChar := by
  rw [mapByRuns]
  split
  · rename_i first last step delta found
    have inside := List.find?_some found
    simp only [Bool.and_eq_true, decide_eq_true_eq, beq_iff_eq] at inside
    rcases lowerRuns_far _ (List.mem_of_find?_eq_some found) with near | kelvin | beyond
    · simp only at near
      omega
    · obtain ⟨rfl, rfl, rfl, rfl⟩ : first = 8490 ∧ last = 8490 ∧ step = 1 ∧ delta = -8383 := by
        simpa using kelvin
      obtain rfl : point = 8490 := by omega
      exact .inl ⟨rfl, rfl⟩
    · simp only at beyond
      refine .inr ⟨by omega, ?_⟩
      unfold Nat.isValidChar
      omega
  · exact .inr ⟨far, valid⟩

theorem mem_lowerChar_near {c x : Char} (far : 128 ≤ c.toNat) (form : x ∈ lowerChar c)
    (near : x.toNat < 128) : c = '\u212a' ∧ x = 'k' ∨ c = '\u0130' ∧ x = 'i' := by
  rw [lowerChar_of_far far] at form
  split at form
  · rename_i dotted
    simp only [List.mem_cons, List.not_mem_nil, or_false] at form
    rcases form with rfl | rfl
    · exact .inr ⟨dotted, rfl⟩
    · exact absurd near (by decide)
  · obtain rfl := List.mem_singleton.1 form
    rcases mapByRuns_far far c.valid with ⟨kelvin, small⟩ | ⟨beyond, valid⟩
    · refine .inl ⟨?_, by rw [small]⟩
      rw [← Char.ofNat_toNat c, kelvin]
    · rw [toNat_ofNat valid] at near
      omega

/-- Next to an ASCII text only the Kelvin sign and the capital I with a dot do not fold alike. -/
theorem foldsAlike_iff_of_ascii {text piece : List Char} (ascii : ∀ c ∈ piece, c.toNat < 128) :
    FoldsAlike text piece ↔ ('\u212a' ∈ text → 'k' ∉ piece.map Char.toLower) ∧
      ('\u0130' ∈ text → 'i' ∉ piece.map Char.toLower) := by
  constructor
  · intro alike
    have apart {a x : Char} (far : 128 ≤ a.toNat) (form : x ∈ caseForms a) (member : a ∈ text) :
        x ∉ piece.map Char.toLower := by
      intro folded
      obtain ⟨b, among, rfl⟩ := List.mem_map.1 folded
      have near := ascii b among
      have own : b.toLower ∈ caseForms b := by
        rw [caseForms_of_near near]
        exact List.mem_singleton_self _
      have same := alike a member b among _ form own
      have close := toLower_near near
      rw [← same, toLower_of_far far] at close
      omega
    exact ⟨apart (by decide) (by decide), apart (by decide) (by decide)⟩
  · rintro ⟨noKelvin, noDotted⟩ a member b among x form own
    have near := ascii b among
    rw [caseForms_of_near near, List.mem_singleton] at own
    subst own
    by_cases close : a.toNat < 128
    · rw [caseForms_of_near close, List.mem_singleton] at form
      exact form.symm
    · have noSigma : a ≠ 'Σ' := by
        rintro rfl
        have close := toLower_near near
        rw [caseForms, if_pos rfl] at form
        simp only [List.mem_cons, List.not_mem_nil, or_false] at form
        rcases form with final | inner
        · exact absurd (final ▸ close) (by decide)
        · exact absurd (inner ▸ close) (by decide)
      rw [caseForms, if_neg noSigma] at form
      have folded : b.toLower ∈ piece.map Char.toLower := List.mem_map_of_mem among
      rcases mem_lowerChar_near (Nat.le_of_not_lt close) form (toLower_near near) with
        ⟨rfl, letter⟩ | ⟨rfl, letter⟩
      · exact absurd (letter ▸ folded) (noKelvin member)
      · exact absurd (letter ▸ folded) (noDotted member)

end Letters

end RowQuery.Text
