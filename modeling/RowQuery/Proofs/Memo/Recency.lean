import Mathlib.Data.List.Nodup
import RowQuery.Memo

/-!
# What a memo forgets

A memo is used by lookups, and it is emptied now and then.  If there were no limit it would remember
every key that was asked for since it was last emptied, as long as this can be compiled.  With a
limit it remembers those of them that were asked for last.  So a key stays for as long as fewer
other keys are asked for than there is room for.
-/

namespace RowQuery.Memo

/-- One use of a memo. -/
inductive Use where
  /-- A key is asked for. -/
  | lookup (key : MemoKey)
  /-- The memo is emptied. -/
  | clear

/-- The key that is asked for. -/
def Use.key? : Use → Option MemoKey
  | lookup key => some key
  | clear => none

/-- The keys that are asked for one after the other. -/
def lookups (uses : List Use) : List MemoKey :=
  uses.filterMap Use.key?

/-- The lookups of other keys. -/
def lookupsBeside (key : MemoKey) (uses : List Use) : Nat :=
  (lookups uses).countP fun other => other ≠ key

variable (compile : MemoKey → Outcome Restriction)

/-- The answers to all lookups and the memo afterwards, where the outcome of a compilation depends
on the key only. -/
def run (m : Memo) : List Use → List (Outcome Restriction) × Memo
  | [] => ([], m)
  | .lookup key :: uses =>
      let (answer, m) := m.fetch key fun _ => compile key
      let (answers, m) := run m uses
      (answer :: answers, m)
  | .clear :: uses => run m.clear uses

/-- What a memo without limit remembers, the key asked for last in front.  The last use stands in
front of the history, too. -/
def recent : List Use → List (MemoKey × Restriction)
  | [] | .clear :: _ => []
  | .lookup key :: earlier =>
      match compile key with
      | .ok found => (key, found) :: (recent earlier).filter fun entry => entry.1 ≠ key
      | .error _ => recent earlier

variable {compile} {history : List Use} {key : MemoKey} {found : Restriction} {m : Memo}

/-! ## Without limit -/

theorem recent_of_ok (compiled : compile key = .ok found) (earlier : List Use) :
    recent compile (.lookup key :: earlier) =
      (key, found) :: (recent compile earlier).filter fun entry => entry.1 ≠ key := by
  rw [recent, compiled]

theorem recent_of_error {cause : Fault} (failed : compile key = .error cause)
    (earlier : List Use) :
    recent compile (.lookup key :: earlier) = recent compile earlier := by
  rw [recent, failed]

/-- What is remembered is what the compilation returned. -/
theorem compile_of_mem_recent {entry : MemoKey × Restriction}
    (among : entry ∈ recent compile history) : compile entry.1 = .ok entry.2 := by
  induction history with
  | nil => cases among
  | cons use earlier ih =>
      cases use with
      | clear => cases among
      | lookup key =>
          cases compiled : compile key with
          | error cause => exact ih (recent_of_error compiled earlier ▸ among)
          | ok found =>
              rw [recent_of_ok compiled] at among
              rcases List.mem_cons.1 among with rfl | older
              · exact compiled
              · exact ih (List.mem_filter.1 older).1

/-- A key is remembered once. -/
theorem recent_nodup : ((recent compile history).map Prod.fst).Nodup := by
  induction history with
  | nil => exact List.nodup_nil
  | cons use earlier ih =>
      cases use with
      | clear => exact List.nodup_nil
      | lookup key =>
          cases compiled : compile key with
          | error cause => rwa [recent_of_error compiled]
          | ok found =>
              rw [recent_of_ok compiled, List.map_cons, List.nodup_cons]
              refine ⟨fun again => ?_, ih.sublist (List.filter_sublist.map _)⟩
              obtain ⟨entry, older, same⟩ := List.mem_map.1 again
              exact absurd same (by simpa using (List.mem_filter.1 older).2)

/-! ## With a limit -/

/-- Of the entries behind the limit none comes back when a key moves to the front. -/
theorem take_filter_take (key : MemoKey) {entries : List (MemoKey × Restriction)}
    (nodup : (entries.map Prod.fst).Nodup) (n : Nat) :
    ((entries.take (n + 1)).filter fun entry => entry.1 ≠ key).take n =
      (entries.filter fun entry => entry.1 ≠ key).take n := by
  induction entries generalizing n with
  | nil => simp
  | cons entry rest ih =>
      rw [List.map_cons, List.nodup_cons] at nodup
      by_cases same : entry.1 = key
      · have others : ∀ other ∈ rest, decide (other.1 ≠ key) = true := fun other member =>
          decide_eq_true fun again =>
            nodup.1 (List.mem_map.2 ⟨other, member, again.trans same.symm⟩)
        have others' : ∀ other ∈ rest.take n, decide (other.1 ≠ key) = true :=
          fun other member => others other (List.mem_of_mem_take member)
        rw [List.take_succ_cons, List.filter_cons_of_neg (by simp [same]),
          List.filter_cons_of_neg (by simp [same]), List.filter_eq_self.2 others,
          List.filter_eq_self.2 others', List.take_take, Nat.min_eq_left (Nat.le_refl n)]
      · rw [List.take_succ_cons, List.filter_cons_of_pos (by simp [same]),
          List.filter_cons_of_pos (by simp [same])]
        cases n with
        | zero => rfl
        | succ n => rw [List.take_succ_cons, List.take_succ_cons, ih nodup.2]

/-- An entry moves to the front of the first entries as it does to the front of all. -/
theorem placed_take {capacity : Nat} (positive : 0 < capacity) (key : MemoKey)
    (found : Restriction) {entries : List (MemoKey × Restriction)}
    (nodup : (entries.map Prod.fst).Nodup) :
    placed capacity key found (entries.take capacity) =
      ((key, found) :: entries.filter fun entry => entry.1 ≠ key).take capacity := by
  obtain ⟨n, rfl⟩ := Nat.exists_eq_add_one_of_ne_zero (Nat.pos_iff_ne_zero.1 positive)
  rw [placed, List.take_succ_cons, List.take_succ_cons, take_filter_take key nodup]

/-- The memo remembers the first entries of one without limit. -/
def Follows (compile : MemoKey → Outcome Restriction) (history : List Use) (m : Memo) : Prop :=
  m.entries = (recent compile history).take m.capacity

theorem follows_clear : Follows compile (.clear :: history) m.clear :=
  List.take_nil.symm

namespace Follows

variable (follows : Follows compile history m)

include follows

theorem compile_of_find? (remembered : m.find? key = some found) :
    compile key = .ok found := by
  obtain ⟨entry, listed, rfl⟩ := Option.map_eq_some_iff.1 remembered
  have among : entry ∈ m.entries := List.mem_of_find?_eq_some listed
  rw [follows] at among
  have same : entry.1 = key := by simpa using List.find?_some listed
  exact same ▸ compile_of_mem_recent (List.mem_of_mem_take among)

theorem store (compiled : compile key = .ok found) :
    Follows compile (.lookup key :: history) (m.store key found) := by
  change placed m.capacity key found m.entries = _
  rw [follows, placed_take m.positive key found recent_nodup, recent_of_ok compiled]
  rfl

/-- A lookup returns what the compilation returns, from the memo or not. -/
theorem fetch (key : MemoKey) :
    (m.fetch key fun _ => compile key).1 = compile key ∧
      Follows compile (.lookup key :: history) (m.fetch key fun _ => compile key).2 := by
  rw [Memo.fetch]
  split
  · rename_i found remembered
    have compiled := follows.compile_of_find? remembered
    exact ⟨compiled.symm, follows.store compiled⟩
  · cases compiled : compile key with
    | error cause =>
        refine ⟨rfl, ?_⟩
        rw [Follows, recent_of_error compiled]
        exact follows
    | ok found =>
        have counted : Follows compile history m.countMiss := follows
        exact ⟨rfl, counted.store compiled⟩

/-- A key that cannot be compiled is asked for in vain, and nothing moves or is forgotten. -/
theorem entries_of_error {cause : Fault} (failed : compile key = .error cause) :
    (m.fetch key fun _ => compile key).2.entries = m.entries := by
  rw [Memo.fetch]
  split
  · rename_i found remembered
    rw [follows.compile_of_find? remembered] at failed
    cases failed
  · rw [failed]
    rfl

/-- A key that is among the first ones is found. -/
theorem find?_of_mem (among : (key, found) ∈ (recent compile history).take m.capacity) :
    m.find? key = some found := by
  rw [← follows] at among
  cases absent : m.find? key with
  | none =>
      have none_ := List.find?_eq_none.1 (Option.map_eq_none_iff.1 absent) _ among
      simp at none_
  | some other =>
      have compiled := follows.compile_of_find? absent
      rw [follows] at among
      have same := compile_of_mem_recent (List.mem_of_mem_take among)
      rw [compiled] at same
      rw [Except.ok.inj same]

end Follows

theorem fetch_of_find? (remembered : m.find? key = some found)
    (attempt : Unit → Outcome Restriction) :
    m.fetch key attempt = (.ok found, (m.store key found).countHit) := by
  rw [fetch, remembered]

@[simp]
theorem capacity_fetch (attempt : Unit → Outcome Restriction) :
    (m.fetch key attempt).2.capacity = m.capacity := by
  rw [fetch]
  split
  · rfl
  · split <;> rfl

/-- A lookup is counted once. -/
theorem counts_fetch (attempt : Unit → Outcome Restriction) :
    (m.fetch key attempt).2.hits + (m.fetch key attempt).2.misses = m.hits + m.misses + 1 := by
  rw [fetch]
  split
  · exact Nat.add_right_comm m.hits 1 m.misses
  · split <;> rfl

/-! ## Runs -/

theorem run_lookup (key : MemoKey) (uses : List Use) :
    m.run compile (.lookup key :: uses) =
      ((m.fetch key fun _ => compile key).1 ::
          ((m.fetch key fun _ => compile key).2.run compile uses).1,
        ((m.fetch key fun _ => compile key).2.run compile uses).2) :=
  rfl

/-- After any uses the memo remembers the first entries of one without limit, and every lookup has
returned what its compilation returns. -/
theorem Follows.run (follows : Follows compile history m) (uses : List Use) :
    (m.run compile uses).1 = (lookups uses).map compile ∧
      Follows compile (uses.reverse ++ history) (m.run compile uses).2 ∧
      (m.run compile uses).2.capacity = m.capacity ∧
      (m.run compile uses).2.hits + (m.run compile uses).2.misses =
        m.hits + m.misses + (lookups uses).length := by
  induction uses generalizing m history with
  | nil => exact ⟨rfl, follows, rfl, rfl⟩
  | cons use uses ih =>
      rw [List.reverse_cons, List.append_assoc, List.singleton_append]
      cases use with
      | clear => exact ih follows_clear
      | lookup key =>
          obtain ⟨answer, later⟩ := follows.fetch key
          obtain ⟨answers, followsLater, capacity, counts⟩ := ih later
          rw [run_lookup]
          refine ⟨?_, followsLater, ?_, ?_⟩
          · rw [answer, answers]
            rfl
          · rw [capacity, capacity_fetch]
          · rw [counts, counts_fetch]
            change _ = m.hits + m.misses + ((lookups uses).length + 1)
            omega

theorem follows_ofCapacity (capacity : Nat) : Follows compile [] (ofCapacity capacity) :=
  List.take_nil.symm

theorem mem_take_filter {keep : MemoKey × Restriction → Bool} {n : Nat}
    {entry : MemoKey × Restriction} {entries : List (MemoKey × Restriction)}
    (among : entry ∈ entries.take n) (kept : keep entry = true) :
    entry ∈ (entries.filter keep).take n := by
  have front : (entries.take n).filter keep <+: entries.filter keep :=
    (List.take_prefix n entries).filter keep
  have short : ((entries.take n).filter keep).length ≤ n :=
    Nat.le_trans (List.length_filter_le _ _) (List.length_take_le n entries)
  have here : entry ∈ (entries.take n).filter keep := List.mem_filter.2 ⟨among, kept⟩
  rw [List.prefix_iff_eq_take.1 front] at here
  exact List.take_subset_take_left _ short here

theorem lookupsBeside_reverse (key : MemoKey) (uses : List Use) :
    lookupsBeside key uses.reverse = lookupsBeside key uses := by
  rw [lookupsBeside, lookups, List.filterMap_reverse, List.countP_reverse]
  rfl

/-- Since a key was asked for it has moved back by one place at most for each lookup of another
key. -/
theorem mem_take_recent (compiled : compile key = .ok found) (before : List Use)
    {since : List Use} (uncleared : Use.clear ∉ since) :
    (key, found) ∈ (recent compile (since ++ .lookup key :: before)).take
      (lookupsBeside key since + 1) := by
  induction since with
  | nil =>
      rw [List.nil_append, recent_of_ok compiled]
      exact List.mem_cons_self
  | cons use since ih =>
      rw [List.mem_cons, not_or] at uncleared
      cases use with
      | clear => exact absurd rfl uncleared.1
      | lookup other =>
          rw [List.cons_append]
          by_cases same : other = key
          · rw [same, recent_of_ok compiled]
            exact List.mem_cons_self
          · have here := ih uncleared.2
            have moved : lookupsBeside key (.lookup other :: since) =
                lookupsBeside key since + 1 := by
              simp [lookupsBeside, lookups, Use.key?, same]
            rw [moved]
            cases outcome : compile other with
            | error cause =>
                rw [recent_of_error outcome]
                exact List.take_subset_take_left _ (Nat.le_succ _) here
            | ok value =>
                rw [recent_of_ok outcome, List.take_succ_cons]
                have kept : decide (key ≠ other) = true := decide_eq_true (Ne.symm same)
                exact List.mem_cons_of_mem _ (mem_take_filter here kept)

/-- With any capacity and after any uses, where compiling a key always has the same outcome: every
lookup has returned this outcome; the memo has the keys asked for last since it was emptied, no more
than there is room for; hits and misses count the lookups; a key whose compilation fails leaves the
entries as they are; and a key is answered from the memo, whatever compiling it would return now, if
it was compiled, the memo was not emptied since, and fewer other lookups followed than there is room
for entries. -/
theorem memo_remembers_recent (compile : MemoKey → Outcome Restriction) (capacity : Nat)
    (uses : List Use) :
    ((ofCapacity capacity).run compile uses).1 = (lookups uses).map compile ∧
    let m := ((ofCapacity capacity).run compile uses).2
    m.entries = (recent compile uses.reverse).take (max capacity 1) ∧
    m.entries.length ≤ max capacity 1 ∧
    m.hits + m.misses = (lookups uses).length ∧
    (∀ key, (m.fetch key fun _ => compile key).1 = compile key) ∧
    (∀ key cause, compile key = .error cause →
      (m.fetch key fun _ => compile key).2.entries = m.entries) ∧
    ∀ key found before since, compile key = .ok found → uses = before ++ .lookup key :: since →
      Use.clear ∉ since → lookupsBeside key since < max capacity 1 →
      ∀ attempt, (m.fetch key attempt).1 = .ok found ∧
        (m.fetch key attempt).2.hits = m.hits + 1 ∧ (m.fetch key attempt).2.misses = m.misses := by
  have empty : Follows compile [] (ofCapacity capacity) := follows_ofCapacity capacity
  obtain ⟨answers, follows, room, counts⟩ := empty.run uses
  rw [List.append_nil] at follows
  have room : ((ofCapacity capacity).run compile uses).2.capacity = max capacity 1 := room
  refine ⟨answers, room ▸ follows, room ▸ fits _, ?_, fun key => (follows.fetch key).1,
    fun key cause failed => follows.entries_of_error failed, ?_⟩
  · rw [counts]
    exact Nat.zero_add _
  · intro key found before since compiled whole uncleared few attempt
    have uncleared : Use.clear ∉ since.reverse := by simpa using uncleared
    have near := mem_take_recent compiled before.reverse uncleared
    rw [lookupsBeside_reverse] at near
    have history : uses.reverse = since.reverse ++ .lookup key :: before.reverse := by
      rw [whole]
      simp
    rw [← history] at near
    have among := List.take_subset_take_left _ (room ▸ few) near
    rw [fetch_of_find? (follows.find?_of_mem among)]
    exact ⟨rfl, rfl, rfl⟩

section Traffic

/-- The key of an expression. -/
def keyOf (expression : String) : MemoKey where
  types := "generic"
  dialect := "generic"
  expression
  tables := []
  arguments := none

/-- Every expression but one has an SQL form. -/
def compileAll (key : MemoKey) : Outcome Restriction :=
  if key.expression = "wrong" then .error (.misuse "wrong") else .ok ⟨key.expression, true⟩

/-- What is asked for again of a memo that was emptied in between. -/
def traffic : List Use :=
  [.lookup (keyOf "d"), .clear, .lookup (keyOf "a"), .lookup (keyOf "b"), .lookup (keyOf "a"),
    .lookup (keyOf "wrong")]

/-- In a memo for three entries `b` outlives the two lookups behind it, of which one fails.  So it
is answered although it could not be compiled any more. -/
theorem traffic_remembers :
    let since := [Use.lookup (keyOf "a"), .lookup (keyOf "wrong")]
    let m := ((ofCapacity 3).run compileAll traffic).2
    compileAll (keyOf "b") = .ok ⟨"b", true⟩ ∧
    compileAll (keyOf "wrong") = .error (.misuse "wrong") ∧
    lookupsBeside (keyOf "b") since < 3 ∧
    (m.fetch (keyOf "wrong") fun _ => compileAll (keyOf "wrong")).2.entries = m.entries ∧
    ∀ attempt, (m.fetch (keyOf "b") attempt).1 = .ok ⟨"b", true⟩ ∧
      (m.fetch (keyOf "b") attempt).2.hits = m.hits + 1 ∧
      (m.fetch (keyOf "b") attempt).2.misses = m.misses := by
  have few : lookupsBeside (keyOf "b") [.lookup (keyOf "a"), .lookup (keyOf "wrong")] < 3 := by
    decide
  obtain ⟨-, -, -, -, -, failing, answered⟩ := memo_remembers_recent compileAll 3 traffic
  refine ⟨rfl, rfl, few, failing _ _ rfl, ?_⟩
  exact answered (keyOf "b") ⟨"b", true⟩ [.lookup (keyOf "d"), .clear, .lookup (keyOf "a")]
    [.lookup (keyOf "a"), .lookup (keyOf "wrong")] rfl rfl (by simp) few

end Traffic

end RowQuery.Memo
