import RowQuery.Dialect.Ansi
import RowQuery.Proofs.Memo.Arguments
import RowQuery.Proofs.Steps

/-!
# Restrictions through a memo

A memo answers a request with what it remembers under the key of the request.  This
file proves when that makes no difference: on a set of requests the answers through
memos of all sizes are those without a memo if, and only if, different requests of the
set that are printed alike share their restriction.  All else that a restriction depends
on is in the key.
-/

namespace RowQuery

/-- A restriction to be compiled. -/
structure RestrictionRequest where
  bindings : List Binding
  e : Lambda
  arguments : Arguments

namespace RestrictionRequest

variable (w : Workspace)

/-- The restriction, compiled afresh. -/
def afresh (r : RestrictionRequest) : Outcome Restriction :=
  w.compileRestriction r.bindings r.e r.arguments

/-- The key under which it is remembered. -/
def key (r : RestrictionRequest) : MemoKey :=
  w.memoKey r.bindings r.e r.arguments

/-- The answers to several requests, one after the other, through a memo if there is
one. -/
def answers (memo : Option Memo) : List RestrictionRequest → List (Outcome Restriction)
  | [] => []
  | r :: rs =>
      let (answer, memo) := (w.restriction r.bindings r.e r.arguments).run memo
      answer :: answers memo rs

theorem answers_none (requests : List RestrictionRequest) :
    answers w none requests = requests.map (afresh w) := by
  induction requests with
  | nil => rfl
  | cons r rs ih => exact congrArg (r.afresh w :: ·) ih

/-- All that the memo remembers was compiled for requests of a set. -/
def Remembers (among : RestrictionRequest → Prop) (memo : Memo) : Prop :=
  ∀ entry ∈ memo.entries, ∃ r, among r ∧ r.key w = entry.1 ∧ r.afresh w = .ok entry.2

variable {w} {among : RestrictionRequest → Prop} {memo : Memo}

theorem answers_some_cons (r : RestrictionRequest) (rs : List RestrictionRequest) :
    answers w (some memo) (r :: rs) =
      (memo.fetch (r.key w) fun _ => r.afresh w).1 ::
        answers w (some (memo.fetch (r.key w) fun _ => r.afresh w).2) rs :=
  rfl

theorem remembers_ofCapacity (capacity : Nat) : Remembers w among (.ofCapacity capacity) :=
  fun _ member => absurd member (by simp [Memo.ofCapacity])

theorem Remembers.find? (remembers : Remembers w among memo) {key : MemoKey}
    {found : Restriction} (remembered : memo.find? key = some found) :
    ∃ r, among r ∧ r.key w = key ∧ r.afresh w = .ok found := by
  obtain ⟨entry, listed, rfl⟩ := Option.map_eq_some_iff.1 remembered
  obtain ⟨r, inSet, rKey, compiled⟩ := remembers entry (List.mem_of_find?_eq_some listed)
  refine ⟨r, inSet, rKey.trans ?_, compiled⟩
  simpa using List.find?_some listed

theorem Remembers.store (remembers : Remembers w among memo) {r : RestrictionRequest}
    (inSet : among r) {found : Restriction} (compiled : r.afresh w = .ok found) :
    Remembers w among (memo.store (r.key w) found) := by
  intro entry member
  rcases List.mem_cons.1 (List.mem_of_mem_take member) with rfl | older
  · exact ⟨r, inSet, rfl, compiled⟩
  · exact remembers entry (List.mem_filter.1 older).1

/-- Requests of the set that share a key share their restriction. -/
def KeysDecide (w : Workspace) (among : RestrictionRequest → Prop) : Prop :=
  ∀ r s, among r → among s → r.key w = s.key w →
    ∀ found, r.afresh w = .ok found → s.afresh w = .ok found

/-- One request: the answer is that without memo, and what is remembered stays
right. -/
theorem Remembers.fetch (remembers : Remembers w among memo) (decided : KeysDecide w among)
    {r : RestrictionRequest} (inSet : among r) :
    (memo.fetch (r.key w) fun _ => r.afresh w).1 = r.afresh w ∧
      Remembers w among (memo.fetch (r.key w) fun _ => r.afresh w).2 := by
  rw [Memo.fetch]
  split
  · rename_i found remembered
    obtain ⟨s, sInSet, sameKey, compiled⟩ := remembers.find? remembered
    have compiled := decided s r sInSet inSet sameKey found compiled
    exact ⟨compiled.symm, remembers.store inSet compiled⟩
  · cases compiled : r.afresh w with
    | error fault => exact ⟨rfl, remembers⟩
    | ok found =>
        have counted : Remembers w among memo.countMiss := remembers
        exact ⟨rfl, counted.store inSet compiled⟩

theorem Remembers.answers (decided : KeysDecide w among) {requests : List RestrictionRequest}
    (inSet : ∀ r ∈ requests, among r) :
    ∀ {memo : Memo}, Remembers w among memo →
      answers w (some memo) requests = answers w none requests := by
  induction requests with
  | nil => exact fun _ => rfl
  | cons r rs ih =>
      intro memo remembers
      obtain ⟨answer, remembersAfter⟩ := remembers.fetch decided (inSet r (by simp))
      have rest := ih (fun s member => inSet s (by simp [member])) remembersAfter
      rw [answers_some_cons, answer, rest, answers_none, answers_none, List.map_cons]

theorem find?_store_self (memo : Memo) (key : MemoKey) (found : Restriction) :
    (memo.store key found).find? key = some found := by
  obtain ⟨n, capacity⟩ := Nat.exists_eq_add_one_of_ne_zero (Nat.pos_iff_ne_zero.1 memo.positive)
  simp [Memo.store, Memo.find?, Memo.placed, capacity]

/-- A request that follows another one of the same key gets the answer to that. -/
theorem answers_pair {r s : RestrictionRequest} (sameKey : r.key w = s.key w)
    {found : Restriction} (compiled : r.afresh w = .ok found) (capacity : Nat) :
    answers w (some (.ofCapacity capacity)) [r, s] = [.ok found, .ok found] := by
  have missed : (Memo.ofCapacity capacity).find? (r.key w) = none := rfl
  have hit (memo : Memo) (remembered : memo.find? (s.key w) = some found) :
      (memo.fetch (s.key w) fun _ => s.afresh w).1 = .ok found := by
    rw [Memo.fetch, remembered]
  rw [answers_some_cons, Memo.fetch, missed, compiled, answers_some_cons,
    hit _ (sameKey ▸ find?_store_self _ _ _)]
  rfl

/-- A memo is transparent for a set of requests exactly if their keys decide their
restrictions. -/
theorem transparent_iff_keysDecide (w : Workspace) (among : RestrictionRequest → Prop) :
    (∀ capacity requests, (∀ r ∈ requests, among r) →
      answers w (some (.ofCapacity capacity)) requests = answers w none requests) ↔
    KeysDecide w among := by
  constructor
  · intro transparent r s rInSet sInSet sameKey found compiled
    have both := transparent 1 [r, s] (by simp [rInSet, sInSet])
    rw [answers_pair sameKey compiled, answers_none] at both
    exact (List.cons.inj (List.cons.inj both).2).1.symm
  · intro decided capacity requests inSet
    exact Remembers.answers decided inSet (remembers_ofCapacity capacity)

/-- Two different requests that are printed alike.  They are on the same tables; their
expressions differ, or the arguments that occur in these, but the printed forms do not. -/
structure Homographs (r s : RestrictionRequest) : Prop where
  bindings : r.bindings = s.bindings
  expression : r.e.repr = s.e.repr
  occur : r.e.body.usesArguments = s.e.body.usesArguments
  arguments : r.e.body.usesArguments = true →
    MemoKey.argumentsText r.arguments = MemoKey.argumentsText s.arguments
  different : r.e = s.e → r.e.body.usesArguments = true ∧ r.arguments ≠ s.arguments

variable {r s : RestrictionRequest} {table : String → Table}

theorem key_arguments_eq_iff : (r.key w).arguments = (s.key w).arguments ↔
    r.e.body.usesArguments = s.e.body.usesArguments ∧ (r.e.body.usesArguments = true →
      MemoKey.argumentsText r.arguments = MemoKey.argumentsText s.arguments) := by
  change (if r.e.body.usesArguments then some (MemoKey.argumentsText r.arguments) else none) =
    (if s.e.body.usesArguments then some (MemoKey.argumentsText s.arguments) else none) ↔ _
  cases r.e.body.usesArguments <;> cases s.e.body.usesArguments <;> simp

theorem Homographs.key_eq (alike : r.Homographs s) : r.key w = s.key w := by
  have arguments : (r.key w).arguments = (s.key w).arguments :=
    key_arguments_eq_iff.2 ⟨alike.occur, alike.arguments⟩
  have tables : (r.key w).tables = (s.key w).tables := by
    change r.bindings.map _ = s.bindings.map _
    rw [alike.bindings]
  change MemoKey.mk _ _ _ _ _ = MemoKey.mk _ _ _ _ _
  rw [MemoKey.mk.injEq]
  exact ⟨rfl, rfl, alike.expression, tables, arguments⟩

/-- The tables of a key are those of the request, where tables are known by name. -/
theorem bindings_of_key (named : ∀ b ∈ r.bindings, b.table = table b.table.name) :
    (r.key w).tables.map (fun entry => ⟨entry.1, table entry.2⟩) = r.bindings := by
  change (r.bindings.map fun b => (b.label, b.table.name)).map _ = _
  rw [List.map_map]
  refine (List.map_congr_left fun b member => ?_).trans (List.map_id _)
  rw [Function.comp_apply, ← named b member]
  rfl

/-- Requests that share a key share their restriction, unless they are only printed
alike. -/
theorem homographs_or_afresh_eq (rNamed : ∀ b ∈ r.bindings, b.table = table b.table.name)
    (sNamed : ∀ b ∈ s.bindings, b.table = table b.table.name) (sameKey : r.key w = s.key w) :
    r.Homographs s ∨ r.afresh w = s.afresh w := by
  have bindings : r.bindings = s.bindings := by
    rw [← bindings_of_key rNamed (w := w), sameKey, bindings_of_key sNamed]
  have expression : r.e.repr = s.e.repr := congrArg MemoKey.expression sameKey
  obtain ⟨occur, arguments⟩ := key_arguments_eq_iff.1 (congrArg MemoKey.arguments sameKey)
  by_cases same : r.e = s.e ∧ (r.e.body.usesArguments = true → r.arguments = s.arguments)
  · right
    obtain ⟨sameExpression, sameArguments⟩ := same
    rw [afresh, afresh, ← bindings, ← sameExpression]
    cases used : r.e.body.usesArguments with
    | true => rw [sameArguments used]
    | false => exact w.compileRestriction_of_unused _ used _ _
  · left
    refine ⟨bindings, expression, occur, arguments, fun sameExpression => ?_⟩
    cases used : r.e.body.usesArguments with
    | true => exact ⟨rfl, fun equal => same ⟨sameExpression, fun _ => equal⟩⟩
    | false =>
        refine absurd ⟨sameExpression, fun occurs => ?_⟩ same
        rw [used] at occurs
        cases occurs

/-- A memo is transparent for a set of requests exactly if those that are only printed
alike have the same restriction. -/
theorem memo_transparent_iff (w : Workspace) (table : String → Table)
    (among : RestrictionRequest → Prop)
    (named : ∀ r, among r → ∀ b ∈ r.bindings, b.table = table b.table.name) :
    (∀ capacity requests, (∀ r ∈ requests, among r) →
      answers w (some (.ofCapacity capacity)) requests = answers w none requests) ↔
    ∀ r s, among r → among s → r.Homographs s →
      ∀ found, r.afresh w = .ok found → s.afresh w = .ok found := by
  rw [transparent_iff_keysDecide]
  constructor
  · intro decided r s rInSet sInSet alike
    exact decided r s rInSet sInSet alike.key_eq
  · intro decided r s rInSet sInSet sameKey found compiled
    rcases homographs_or_afresh_eq (named r rInSet) (named s sInSet) sameKey with alike | same
    · exact decided r s rInSet sInSet alike found compiled
    · rwa [← same]

/-- A table with one column of truth values. -/
def twin : Table where
  name := "t"
  quotedName := "\"t\""
  columns := [{ key := "a", name := "a", quotedName := "\"a\"", kind := .bool,
                type := .plainOf "BOOLEAN" .boolean }]

/-- The column of the first of two such tables. -/
def ofFirst : RestrictionRequest where
  bindings := [⟨"l", twin⟩, ⟨"r", twin⟩]
  e := ⟨["x", "y"], .field (.param 0) "a", by decide⟩
  arguments := []

/-- The column of the second one.  The parameters have changed names. -/
def ofSecond : RestrictionRequest where
  bindings := [⟨"l", twin⟩, ⟨"r", twin⟩]
  e := ⟨["y", "x"], .field (.param 1) "a", by decide⟩
  arguments := []

theorem memo_confuses_twins :
    ¬ ∀ capacity requests, (∀ r ∈ requests, r = ofFirst ∨ r = ofSecond) →
      answers ⟨.ansi, {}⟩ (some (.ofCapacity capacity)) requests =
        answers ⟨.ansi, {}⟩ none requests := by
  intro transparent
  have named : ∀ r, r = ofFirst ∨ r = ofSecond → ∀ b ∈ r.bindings, b.table = twin := by
    intro r either b member
    have bindings : r.bindings = [⟨"l", twin⟩, ⟨"r", twin⟩] := by
      rcases either with rfl | rfl <;> rfl
    rw [bindings] at member
    simp only [List.mem_cons, List.not_mem_nil, or_false] at member
    rcases member with rfl | rfl <;> rfl
  have alike : ofFirst.Homographs ofSecond :=
    ⟨rfl, rfl, rfl, fun _ => rfl, fun same => absurd (congrArg Lambda.params same) (by decide)⟩
  have decided := (memo_transparent_iff ⟨.ansi, {}⟩ (fun _ => twin) _ named).1 transparent
  have wrong := decided ofFirst ofSecond (.inl rfl) (.inr rfl) alike
    ⟨"\"l\".\"a\" = TRUE", true⟩ rfl
  have right : ofSecond.afresh ⟨.ansi, {}⟩ = .ok ⟨"\"r\".\"a\" = TRUE", true⟩ := rfl
  rw [right] at wrong
  exact absurd (congrArg Restriction.sql (Except.ok.inj wrong)) (by decide)

end RestrictionRequest

end RowQuery

/-!
# What holds of answers through a memo

A memo answers a request with what was compiled for a request of the same key, and remembers
nothing else afterwards.  What a computation with a memo ensures is put together from what its
steps ensure.
-/

namespace RowQuery

open RestrictionRequest

namespace RestrictionRequest

variable {w : Workspace} {among : RestrictionRequest → Prop} {memo : Memo}

/-- The answer to a request was compiled for one of the same key. -/
theorem Remembers.fetch_of_inSet (remembers : Remembers w among memo) {r : RestrictionRequest}
    (inSet : among r) :
    Remembers w among (memo.fetch (r.key w) fun _ => r.afresh w).2 ∧
      ∀ found, (memo.fetch (r.key w) fun _ => r.afresh w).1 = .ok found →
        ∃ s, among s ∧ s.key w = r.key w ∧ s.afresh w = .ok found := by
  rw [Memo.fetch]
  split
  · rename_i found remembered
    obtain ⟨s, sInSet, sameKey, compiled⟩ := remembers.find? remembered
    refine ⟨?_, fun found' same => ⟨s, sInSet, sameKey, ?_⟩⟩
    · exact sameKey ▸ remembers.store sInSet compiled
    · rwa [← Except.ok.inj same]
  · cases compiled : r.afresh w with
    | error fault =>
        refine ⟨remembers, ?_⟩
        rintro _ ⟨⟩
    | ok found =>
        have counted : Remembers w among memo.countMiss := remembers
        refine ⟨counted.store inSet compiled, fun found' same => ⟨r, inSet, rfl, ?_⟩⟩
        rw [compiled]
        exact same

/-- There is no memo, or all that it remembers was compiled for requests of a set. -/
def Recalls (w : Workspace) (among : RestrictionRequest → Prop) (memo : Option Memo) : Prop :=
  ∀ m ∈ memo, Remembers w among m

theorem recalls_none : Recalls w among none := by
  rintro _ ⟨⟩

end RestrictionRequest

namespace Memoized

variable {w : Workspace} {among : RestrictionRequest → Prop} {α β : Type}

/-- Whatever the memo recalls, the computation ends in a fault or with a result of which
something holds, and the memo recalls no other requests afterwards. -/
def Ensures (w : Workspace) (among : RestrictionRequest → Prop) (m : Memoized α)
    (holds : α → Prop) : Prop :=
  ∀ memo, Recalls w among memo →
    Recalls w among (m.run memo).2 ∧ ∀ a, (m.run memo).1 = .ok a → holds a

variable {holds : α → Prop} {holdsAfter : β → Prop}

theorem ensures_pure {a : α} (here : holds a) : Ensures w among (pure a) holds :=
  fun _ recalls => ⟨recalls, fun _ same => Except.ok.inj same ▸ here⟩

theorem ensures_throw (cause : Fault) : Ensures w among (throw cause) holds :=
  fun _ recalls => ⟨recalls, nofun⟩

theorem ensures_throw_bind (cause : Fault) (rest : α → Memoized β) :
    Ensures w among (throw cause >>= rest) holdsAfter :=
  fun _ recalls => ⟨recalls, nofun⟩

theorem ensures_liftM {outcome : Outcome α} (here : ∀ a, outcome = .ok a → holds a) :
    Ensures w among (liftM outcome) holds := by
  intro memo recalls
  rw [ExceptT.run_liftExcept]
  exact ⟨recalls, here⟩

theorem Ensures.bind {m : Memoized α} {rest : α → Memoized β} (first : Ensures w among m holds)
    (then_ : ∀ a, holds a → Ensures w among (rest a) holdsAfter) :
    Ensures w among (m >>= rest) holdsAfter := by
  intro memo recalls
  obtain ⟨recalls', here⟩ := first memo recalls
  rw [ExceptT.run_bind_eq]
  cases ran : m.run memo with
  | mk outcome memo' =>
      rw [ran] at recalls' here
      cases outcome with
      | error cause => exact ⟨recalls', nofun⟩
      | ok a => exact then_ a (here a rfl) memo' recalls'

theorem Ensures.imp {m : Memoized α} {weaker : α → Prop} (ensures : Ensures w among m holds)
    (here : ∀ a, holds a → weaker a) : Ensures w among m weaker :=
  fun memo recalls => ⟨(ensures memo recalls).1,
    fun a same => here a ((ensures memo recalls).2 a same)⟩

/-- What a result was computed with recalls requests of the set. -/
theorem Ensures.traced {m : Memoized α} (ensures : Ensures w among m holds) :
    Ensures w among m fun a => holds a ∧
      ∃ memo memo', Recalls w among memo ∧ m.run memo = (.ok a, memo') :=
  fun memo recalls => ⟨(ensures memo recalls).1, fun a same =>
    ⟨(ensures memo recalls).2 a same, memo, _, recalls, Prod.ext same rfl⟩⟩

/-- A restriction was compiled for a request of the same key. -/
theorem ensures_restriction {r : RestrictionRequest} (inSet : among r) :
    Ensures w among (w.restriction r.bindings r.e r.arguments) fun found =>
      ∃ s, among s ∧ s.key w = r.key w ∧ s.afresh w = .ok found := by
  intro memo recalls
  cases memo with
  | none => exact ⟨recalls, fun found same => ⟨r, inSet, rfl, same⟩⟩
  | some memo =>
      obtain ⟨remembers, answer⟩ := (recalls memo rfl).fetch_of_inSet inSet
      exact ⟨fun m same => Option.some.inj same ▸ remembers, answer⟩

end Memoized

end RowQuery
