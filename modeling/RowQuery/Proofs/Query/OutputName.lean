import Mathlib.Data.List.Nodup
import Mathlib.Data.List.Perm.Subperm
import RowQuery.Query.Select

/-!
# Names of tables and of output columns

The tables of a relation are told apart by their labels and the columns of a result by
their names, so these have to be distinct.  Among one candidate more than there are taken
names one is free, and the names of the candidates that occur once are taken from the
beginning.

The names of the columns are made in one pass.  The search that it makes for a name that
occurs several times has no end of its own: the long name is tried with one number after the
other behind it until one is free.  It ends since fewer names are taken than there are columns,
and different numbers give different names.
-/

namespace RowQuery

namespace Number

theorem natText_injective {m n : Nat} (same : natText m = natText n) : m = n := by
  have digitsEq := String.ofList_injective same
  rw [← digitsValue_digits m, digitsEq, digitsValue_digits]

end Number

namespace Sql

theorem nameCandidate_injective (base : String) {m n : Nat}
    (same : nameCandidate base m = nameCandidate base n) : m = n := by
  have suffixed (k : Nat) : nameCandidate base 0 ≠ nameCandidate base (k + 1) := by
    intro equal
    have lengths := congrArg String.length equal
    have separator : "_".length = 1 := rfl
    simp only [nameCandidate, String.length_append] at lengths
    omega
  cases m with
  | zero =>
      cases n with
      | zero => rfl
      | succ n => exact absurd same (suffixed n)
  | succ m =>
      cases n with
      | zero => exact absurd same.symm (suffixed m)
      | succ n =>
          have texts := congrArg String.toList same
          simp only [nameCandidate, String.toList_append, List.append_cancel_left_eq] at texts
          have numbers := Number.natText_injective (String.toList_injective texts)
          omega

/-- If the search ends at a taken name then all names that it saw are taken. -/
theorem candidates_taken {taken : List String} {base : String} {tries : Nat} :
    ∀ {n : Nat}, firstFree taken base n tries ∈ taken →
      ∀ i ≤ tries, nameCandidate base (n + i) ∈ taken := by
  induction tries with
  | zero =>
      intro n found i bound
      obtain rfl : i = 0 := by omega
      exact found
  | succ tries ih =>
      intro n found i bound
      rw [firstFree] at found
      split at found
      · rename_i here
        cases i with
        | zero => simpa using here
        | succ i =>
            have later := ih found i (by omega)
            rwa [show n + 1 + i = n + (i + 1) by omega] at later
      · rename_i free
        exact absurd found (by simpa using free)

theorem freshName_not_mem (taken : List String) (base : String) :
    freshName taken base ∉ taken := by
  intro found
  have seen := candidates_taken found
  let candidates := (List.range (taken.length + 1)).map (nameCandidate base)
  have distinct : candidates.Nodup :=
    List.Nodup.map (fun _ _ => nameCandidate_injective base) List.nodup_range
  have inside : candidates ⊆ taken := by
    intro name member
    obtain ⟨i, bound, rfl⟩ := List.mem_map.1 member
    have := seen i (by simpa [Nat.lt_succ_iff] using bound)
    rwa [Nat.zero_add] at this
  have counted := (List.Nodup.subperm distinct inside).length_le
  rw [List.length_map, List.length_range] at counted
  omega

/-! ## The search for a free name -/

/-- The search for a free name.  As long as the name at hand is taken the base with the next number
behind it is tried.  The rounds are counted. -/
inductive Search (taken : List String) (base : String) : Nat → String → Nat → String → Prop
  | free {name : String} {next : Nat} (unused : name ∉ taken) : Search taken base 0 name next name
  | again {name found : String} {next rounds : Nat} (used : name ∈ taken)
      (rest : Search taken base rounds (base ++ "_" ++ Number.natText next) (next + 1) found) :
      Search taken base (rounds + 1) name next found

variable {taken : List String} {base : String}

/-- A search ends in one way only. -/
theorem Search.unique {rounds others next : Nat} {name found result : String}
    (first : Search taken base rounds name next found)
    (second : Search taken base others name next result) : found = result ∧ rounds = others := by
  induction first generalizing others with
  | free unused =>
      cases second with
      | free _ => exact ⟨rfl, rfl⟩
      | again used _ => exact absurd used unused
  | again used _ ih =>
      cases second with
      | free unused => exact absurd used unused
      | again _ rest =>
          obtain ⟨same, count⟩ := ih rest
          exact ⟨same, congrArg (· + 1) count⟩

/-- A search that finds a free name in so many tries makes at most as many rounds. -/
theorem search_firstFree {tries : Nat} :
    ∀ {n : Nat}, firstFree taken base n tries ∉ taken → ∃ rounds ≤ tries,
      Search taken base rounds (nameCandidate base n) (n + 2) (firstFree taken base n tries) := by
  induction tries with
  | zero => exact fun unused => ⟨0, Nat.le_refl 0, .free unused⟩
  | succ tries ih =>
      intro n unused
      rw [firstFree] at unused ⊢
      split at unused
      · rename_i used
        obtain ⟨rounds, few, rest⟩ := ih unused
        rw [if_pos used]
        exact ⟨rounds + 1, Nat.succ_le_succ few, .again (by simpa using used) rest⟩
      · rename_i free
        rw [if_neg free]
        exact ⟨0, Nat.zero_le _, .free unused⟩

/-- The search for a fresh name ends after at most one round for each name that is taken. -/
theorem search_freshName (taken : List String) (base : String) :
    ∃ rounds ≤ taken.length, Search taken base rounds base 2 (freshName taken base) :=
  search_firstFree (freshName_not_mem taken base)

/-! ## Several fresh names -/

theorem length_freshNames (taken bases : List String) :
    (freshNames taken bases).length = bases.length := by
  induction bases generalizing taken with
  | nil => rfl
  | cons base bases ih => simp [freshNames, ih]

theorem not_mem_of_mem_freshNames {taken bases : List String} {name : String}
    (member : name ∈ freshNames taken bases) : name ∉ taken := by
  induction bases generalizing taken with
  | nil => cases member
  | cons base bases ih =>
      rcases List.mem_cons.1 member with rfl | later
      · exact freshName_not_mem taken base
      · exact fun known => ih later (List.mem_cons_of_mem _ known)

theorem freshNames_nodup (taken bases : List String) : (freshNames taken bases).Nodup := by
  induction bases generalizing taken with
  | nil => exact .nil
  | cons base bases ih =>
      exact List.nodup_cons.2
        ⟨fun again => not_mem_of_mem_freshNames again (by simp), ih _⟩

end Sql

namespace Relation

theorem map_table_bindings (r : Relation) : r.bindings.map Binding.table = r.tables := by
  rw [bindings, List.map_map]
  exact List.map_snd_zip (by simp [Sql.length_freshNames])

theorem length_bindings (r : Relation) : r.bindings.length = r.size := by
  rw [← length_tables, ← map_table_bindings, List.length_map]

/-- Tables that occur more than once have different labels. -/
theorem label_bindings_nodup (r : Relation) : (r.bindings.map Binding.label).Nodup := by
  have labels : r.bindings.map Binding.label = Sql.freshNames [] (r.tables.map Table.name) := by
    rw [bindings, List.map_map]
    exact List.map_fst_zip (by simp [Sql.length_freshNames])
  exact labels ▸ Sql.freshNames_nodup _ _

end Relation

theorem length_outputNamesFrom (all : List NameCandidate) (rest : List NameCandidate) :
    ∀ taken position, (outputNamesFrom all taken position rest).length = rest.length := by
  induction rest with
  | nil => exact fun _ _ => rfl
  | cons candidate rest ih =>
      intro taken position
      rw [outputNamesFrom]
      split <;> simp [ih]

theorem length_outputNames (candidates : List NameCandidate) :
    (outputNames candidates).length = candidates.length :=
  length_outputNamesFrom candidates candidates _ _

/-- A name of the rest is that of a candidate that occurs once, or it is fresh. -/
theorem mem_outputNamesFrom {all rest : List NameCandidate} {name : String} :
    ∀ {taken position}, name ∈ outputNamesFrom all taken position rest →
      (∃ candidate ∈ rest, isSingle all candidate = true ∧ candidate.1 = name) ∨
        name ∉ taken := by
  induction rest with
  | nil => exact fun member => absurd member (by simp [outputNamesFrom])
  | cons candidate rest ih =>
      intro taken position member
      rw [outputNamesFrom] at member
      split at member
      · rename_i single
        rcases List.mem_cons.1 member with rfl | member
        · exact .inl ⟨candidate, by simp, single, rfl⟩
        · rcases ih member with ⟨other, otherMember, found⟩ | free
          · exact .inl ⟨other, by simp [otherMember], found⟩
          · exact .inr free
      · rcases List.mem_cons.1 member with rfl | member
        · exact .inr (Sql.freshName_not_mem _ _)
        · rcases ih member with ⟨other, otherMember, found⟩ | free
          · exact .inl ⟨other, by simp [otherMember], found⟩
          · exact .inr fun taken => free (by simp [taken])

/-- The names from a position on are distinct if the single ones among the
candidates there are taken already. -/
theorem outputNamesFrom_nodup {all : List NameCandidate} :
    ∀ {before rest : List NameCandidate}, all = before ++ rest → ∀ {taken position},
      (∀ candidate ∈ all, isSingle all candidate = true → candidate.1 ∈ taken) →
        (outputNamesFrom all taken position rest).Nodup
  | _, [], _, _, _, _ => .nil
  | before, candidate :: rest, whole, taken, position, singles => by
      have restWhole : all = (before ++ [candidate]) ++ rest := by simp [whole]
      rw [outputNamesFrom]
      split
      · rename_i single
        refine List.nodup_cons.2 ⟨fun member => ?_, outputNamesFrom_nodup restWhole singles⟩
        rcases mem_outputNamesFrom member with ⟨other, otherMember, -, same⟩ | free
        · have once : all.countP (fun other => other.1 = candidate.1) = 1 := by
            simpa [isSingle] using single
          have again : 0 < rest.countP (fun other => other.1 = candidate.1) :=
            List.countP_pos_iff.2 ⟨other, otherMember, by simpa using same⟩
          rw [whole, List.countP_append, List.countP_cons_of_pos (by simp)] at once
          omega
        · exact free (singles candidate (by simp [whole]) single)
      · refine List.nodup_cons.2 ⟨fun member => ?_, outputNamesFrom_nodup restWhole fun other
          otherMember single => List.mem_cons_of_mem _ (singles other otherMember single)⟩
        rcases mem_outputNamesFrom member with ⟨other, otherMember, single, same⟩ | free
        · refine Sql.freshName_not_mem taken (longName candidate position) ?_
          rw [← same]
          exact singles other (by simp [whole, otherMember]) single
        · simp at free

/-- Output names are distinct. -/
theorem outputNames_nodup (candidates : List NameCandidate) : (outputNames candidates).Nodup := by
  have whole : candidates = [] ++ candidates := rfl
  refine outputNamesFrom_nodup whole fun candidate member single => ?_
  exact List.mem_map.2 ⟨candidate, List.mem_filter.2 ⟨member, single⟩, rfl⟩

/-! ## The pass over the candidates -/

/-- The pass over the candidates that are left, with the names that are taken and the position of
the first of them: the names in order, and the rounds of all searches together. -/
inductive NamingPass (all : List NameCandidate) :
    List String → Nat → List NameCandidate → List String → Nat → Prop
  | done {taken : List String} {position : Nat} : NamingPass all taken position [] [] 0
  | keep {taken names : List String} {position rounds : Nat} {candidate : NameCandidate}
      {rest : List NameCandidate} (single : isSingle all candidate = true)
      (others : NamingPass all taken (position + 1) rest names rounds) :
      NamingPass all taken position (candidate :: rest) (candidate.1 :: names) rounds
  | make {taken names : List String} {position here rounds : Nat} {candidate : NameCandidate}
      {rest : List NameCandidate} {name : String} (several : isSingle all candidate = false)
      (search : Sql.Search taken (longName candidate position) here
        (longName candidate position) 2 name)
      (others : NamingPass all (name :: taken) (position + 1) rest names rounds) :
      NamingPass all taken position (candidate :: rest) (name :: names) (here + rounds)

/-- The pass over all candidates, where the names that occur once are taken from the beginning. -/
def NamesColumns (candidates : List NameCandidate) (names : List String) (rounds : Nat) : Prop :=
  NamingPass candidates ((candidates.filter (isSingle candidates)).map Prod.fst) 1 candidates
    names rounds

namespace NamingPass

variable {all : List NameCandidate}

/-- A pass ends in one way only. -/
theorem unique {taken names results : List String} {position rounds others : Nat}
    {rest : List NameCandidate} (first : NamingPass all taken position rest names rounds)
    (second : NamingPass all taken position rest results others) :
    names = results ∧ rounds = others := by
  induction first generalizing results others with
  | done =>
      cases second with
      | done => exact ⟨rfl, rfl⟩
  | keep single _ ih =>
      cases second with
      | keep _ rest =>
          obtain ⟨same, count⟩ := ih rest
          exact ⟨congrArg _ same, count⟩
      | make several _ _ => exact absurd single (by simp [several])
  | make several search _ ih =>
      cases second with
      | keep single _ => exact absurd single (by simp [several])
      | make _ again rest =>
          obtain ⟨rfl, rfl⟩ := search.unique again
          obtain ⟨same, count⟩ := ih rest
          exact ⟨congrArg _ same, congrArg _ count⟩

/-- As long as there are at most `limit` taken names and candidates in need of one, each of the
searches ends within so many rounds. -/
theorem exists_rounds {limit : Nat} {rest : List NameCandidate} :
    ∀ {taken : List String} {position : Nat},
      taken.length + rest.countP (fun candidate => !isSingle all candidate) ≤ limit →
        ∃ rounds ≤ rest.length * limit,
          NamingPass all taken position rest (outputNamesFrom all taken position rest) rounds := by
  induction rest with
  | nil => exact fun _ => ⟨0, Nat.zero_le _, .done⟩
  | cons candidate rest ih =>
      intro taken position room
      rw [outputNamesFrom]
      cases single : isSingle all candidate with
      | true =>
          rw [List.countP_cons_of_neg (by simp [single])] at room
          obtain ⟨rounds, few, others⟩ := @ih taken (position + 1) room
          refine ⟨rounds, ?_, .keep single others⟩
          rw [List.length_cons, Nat.succ_mul]
          omega
      | false =>
          rw [List.countP_cons_of_pos (by simp [single])] at room
          obtain ⟨here, bound, search⟩ := Sql.search_freshName taken (longName candidate position)
          obtain ⟨rounds, few, others⟩ :=
            @ih (Sql.freshName taken (longName candidate position) :: taken) (position + 1) (by
              rw [List.length_cons]
              omega)
          refine ⟨here + rounds, ?_, .make single search others⟩
          rw [List.length_cons, Nat.succ_mul]
          omega

end NamingPass

theorem exists_namesColumns (candidates : List NameCandidate) :
    ∃ rounds ≤ candidates.length * candidates.length,
      NamesColumns candidates (outputNames candidates) rounds := by
  have room : ((candidates.filter (isSingle candidates)).map Prod.fst).length +
      candidates.countP (fun candidate => !isSingle candidates candidate) ≤ candidates.length := by
    have split := @List.length_eq_countP_add_countP _ (isSingle candidates) candidates
    rw [List.length_map, ← List.countP_eq_length_filter]
    simpa using Nat.le_of_eq split.symm
  exact NamingPass.exists_rounds room

theorem getElem?_outputNamesFrom {all rest : List NameCandidate} {candidate : NameCandidate}
    (single : isSingle all candidate = true) :
    ∀ {taken : List String} {position i : Nat}, rest[i]? = some candidate →
      (outputNamesFrom all taken position rest)[i]? = some candidate.1 := by
  induction rest with
  | nil => exact fun found => absurd found (by simp)
  | cons other rest ih =>
      intro taken position i found
      rw [outputNamesFrom]
      cases i with
      | zero =>
          obtain rfl : other = candidate := by simpa using found
          rw [if_pos single]
          rfl
      | succ i =>
          have later : rest[i]? = some candidate := by simpa using found
          split <;> exact ih later

theorem isSingle_iff {candidates : List NameCandidate} {candidate : NameCandidate} :
    isSingle candidates candidate = true ↔ (candidates.map Prod.fst).count candidate.1 = 1 := by
  rw [isSingle, decide_eq_true_iff, List.count, List.countP_map]
  rfl

/-- The pass ends for all candidates, after at most as many rounds of its searches as the square of
their number, and gives the output names.  These are as many as the candidates, they are distinct,
and a name that occurs once stays in its place. -/
theorem output_names_unique (candidates : List NameCandidate) :
    (∃ rounds ≤ candidates.length * candidates.length, ∀ names count,
      NamesColumns candidates names count ↔ names = outputNames candidates ∧ count = rounds) ∧
      (outputNames candidates).length = candidates.length ∧
      (outputNames candidates).Nodup ∧
      ∀ (i : Nat) (name : String) (label : Option String),
        candidates[i]? = some (name, label) → (candidates.map Prod.fst).count name = 1 →
          (outputNames candidates)[i]? = some name := by
  obtain ⟨rounds, few, run⟩ := exists_namesColumns candidates
  refine ⟨⟨rounds, few, fun names count => ⟨fun other => other.unique run, ?_⟩⟩,
    length_outputNames candidates, outputNames_nodup candidates,
    fun i name label found once => ?_⟩
  · rintro ⟨rfl, rfl⟩
    exact run
  · exact getElem?_outputNamesFrom (isSingle_iff.2 once) found

/-- Candidates of which two get the same long name, which once more is that of another one with a
number behind it. -/
def lookalikes : List NameCandidate :=
  [("b_c", some "a"), ("c", some "a_b"), ("b_c", none), ("c", none), ("a_b_c_2", none)]

theorem lookalikes_are_told_apart :
    lookalikes[4]? = some ("a_b_c_2", none) ∧ (lookalikes.map Prod.fst).count "a_b_c_2" = 1 ∧
      outputNames lookalikes = ["a_b_c", "a_b_c_3", "b_c_3", "c_4", "a_b_c_2"] ∧
      (outputNames lookalikes).Nodup ∧ (outputNames lookalikes)[4]? = some "a_b_c_2" := by
  have found : lookalikes[4]? = some ("a_b_c_2", none) := rfl
  have once : (lookalikes.map Prod.fst).count "a_b_c_2" = 1 := by decide +kernel
  obtain ⟨-, -, distinct, kept⟩ := output_names_unique lookalikes
  exact ⟨found, once, by decide +kernel, distinct, kept 4 "a_b_c_2" none found once⟩

end RowQuery
