import Mathlib.Data.String.Basic
import RowQuery.Keyed

/-!
# Ordered records

A record by key whose keys stand in ascending order is determined by its values, so that a
value that is put back where it was, or where it was taken from, leaves the record as it was.
-/

namespace RowQuery.Keyed

variable {α : Type} {map : Keyed α}

/-- The keys stand in ascending order. -/
def Ordered (map : Keyed α) : Prop :=
  map.Pairwise fun first second => first.1 < second.1

theorem get?_eq_none_of_below {key : String} (below : ∀ pair ∈ map, key < pair.1) :
    get? key map = none := by
  induction map with
  | nil => rfl
  | cons pair rest ih =>
      rw [List.forall_mem_cons] at below
      rw [get?, if_neg (ne_of_gt below.1), ih below.2]

/-- A key that is found later on is not below the first. -/
theorem not_below_of_found {key : String} {value : α} {first : String}
    (above : ∀ pair ∈ map, first < pair.1) (found : get? key map = some value) :
    ¬key < first := by
  intro below
  have absent : get? key map = none :=
    get?_eq_none_of_below fun pair member => below.trans (above pair member)
  rw [absent] at found
  cases found

theorem put_of_below {key : String} {value : α} (below : ∀ pair ∈ map, key < pair.1) :
    put key value map = (key, value) :: map := by
  cases map with
  | nil => rfl
  | cons pair rest =>
      rw [List.forall_mem_cons] at below
      rw [put, if_pos below.1]

theorem mem_put {key : String} {value : α} {pair : String × α} (member : pair ∈ put key value map) :
    pair = (key, value) ∨ pair ∈ map := by
  induction map with
  | nil => exact .inl (List.mem_singleton.1 member)
  | cons head rest ih =>
      rw [put] at member
      split at member
      · exact (List.mem_cons.1 member)
      · split at member
        · exact (List.mem_cons.1 member).imp_right (List.mem_cons_of_mem _)
        · rcases List.mem_cons.1 member with same | member
          · exact .inr (List.mem_cons.2 (.inl same))
          · exact (ih member).imp_right (List.mem_cons_of_mem _)

theorem mem_of_get? {key : String} {value : α} (found : get? key map = some value) :
    (key, value) ∈ map := by
  induction map with
  | nil => cases found
  | cons head rest ih =>
      rw [get?] at found
      split at found
      · rename_i same
        rw [← same, ← Option.some.inj found]
        exact List.mem_cons_self
      · exact List.mem_cons_of_mem _ (ih found)

theorem mem_extend {pairs : List (String × α)} {pair : String × α}
    (member : pair ∈ extend map pairs) : pair ∈ map ∨ pair ∈ pairs := by
  induction pairs generalizing map with
  | nil => exact .inl member
  | cons head pairs ih =>
      rcases ih member with earlier | later
      · exact (mem_put earlier).symm.imp_right fun same => List.mem_cons.2 (.inl same)
      · exact .inr (List.mem_cons_of_mem _ later)

/-- A map that is made of pairs has no others. -/
theorem mem_ofList {pairs : List (String × α)} {pair : String × α} (member : pair ∈ ofList pairs) :
    pair ∈ pairs :=
  (mem_extend member).resolve_left List.not_mem_nil

theorem mem_erase {key : String} {pair : String × α} (member : pair ∈ erase key map) :
    pair ∈ map := by
  induction map with
  | nil => exact member
  | cons head rest ih =>
      rw [erase] at member
      split at member
      · exact List.mem_cons_of_mem _ member
      · rcases List.mem_cons.1 member with rfl | member
        · exact List.mem_cons_self
        · exact List.mem_cons_of_mem _ (ih member)

theorem get?_put (name key : String) (value : α) (map : Keyed α) :
    get? name (put key value map) = if name = key then some value else get? name map := by
  split
  · rename_i same
    rw [same, get?_put_self]
  · rename_i different
    rw [get?_put_ne _ _ different]

theorem get?_eq_none_of_has {key : String} (unused : has key map = false) :
    get? key map = none := by
  simpa [has] using unused

theorem get?_erase_ne {key other : String} (different : other ≠ key) :
    get? other (erase key map) = get? other map := by
  induction map with
  | nil => rfl
  | cons head rest ih =>
      rw [erase]
      split
      · rename_i same
        rw [get?, if_neg (same ▸ Ne.symm different)]
      · rw [get?, get?, ih]

theorem get?_map {β : Type} (f : α → β) (key : String) (map : Keyed α) :
    get? key (map.map fun pair => (pair.1, f pair.2)) = (get? key map).map f := by
  induction map with
  | nil => rfl
  | cons head rest ih =>
      rw [List.map_cons, get?, get?, ih]
      split <;> rfl

/-- A value under a new key comes in addition. -/
theorem put_perm {key : String} {value : α} (absent : get? key map = none) :
    (put key value map).Perm ((key, value) :: map) := by
  induction map with
  | nil => exact List.Perm.refl _
  | cons head rest ih =>
      rw [get?] at absent
      rw [put]
      split at absent
      · cases absent
      · split
        · exact List.Perm.refl _
        · exact ((ih absent).cons head).trans (List.Perm.swap _ _ _)

namespace Ordered

theorem put (ordered : map.Ordered) (key : String) (value : α) : (put key value map).Ordered := by
  induction map with
  | nil => exact List.pairwise_singleton _ _
  | cons head rest ih =>
      obtain ⟨first, tail⟩ := List.pairwise_cons.1 ordered
      rw [Keyed.put]
      split
      · rename_i below
        refine List.pairwise_cons.2 ⟨?_, ordered⟩
        rw [List.forall_mem_cons]
        exact ⟨below, fun pair member => below.trans (first pair member)⟩
      · split
        · rename_i same
          exact List.pairwise_cons.2 ⟨fun pair member => same ▸ first pair member, tail⟩
        · rename_i notBelow different
          refine List.pairwise_cons.2 ⟨fun pair member => ?_, ih tail⟩
          rcases mem_put member with rfl | member
          · exact lt_of_le_of_ne (not_lt.1 notBelow) different
          · exact first pair member

theorem erase (ordered : map.Ordered) (key : String) : (erase key map).Ordered := by
  induction map with
  | nil => exact ordered
  | cons head rest ih =>
      obtain ⟨first, tail⟩ := List.pairwise_cons.1 ordered
      rw [Keyed.erase]
      split
      · exact tail
      · exact List.pairwise_cons.2 ⟨fun pair member => first pair (mem_erase member), ih tail⟩

/-- A value is put in its own place. -/
theorem put_self (ordered : map.Ordered) {key : String} {value : α}
    (found : map.get? key = some value) : Keyed.put key value map = map := by
  induction map with
  | nil => cases found
  | cons head rest ih =>
      obtain ⟨first, tail⟩ := List.pairwise_cons.1 ordered
      rw [get?] at found
      split at found
      · rename_i same
        rw [Keyed.put, if_neg (by rw [same]; exact lt_irrefl _), if_pos same]
        rw [← Option.some.inj found, ← same]
      · rename_i different
        rw [Keyed.put, if_neg (not_below_of_found first found), if_neg different, ih tail found]

/-- A value that was taken out is put back. -/
theorem put_erase (ordered : map.Ordered) {key : String} {value : α}
    (found : map.get? key = some value) : Keyed.put key value (Keyed.erase key map) = map := by
  induction map with
  | nil => cases found
  | cons head rest ih =>
      obtain ⟨first, tail⟩ := List.pairwise_cons.1 ordered
      rw [get?] at found
      rw [Keyed.erase]
      split at found
      · rename_i same
        rw [if_pos same, ← Option.some.inj found, ← same]
        exact put_of_below first
      · rename_i different
        rw [if_neg different, Keyed.put, if_neg (not_below_of_found first found),
          if_neg different, ih tail found]

theorem get?_erase_self (ordered : map.Ordered) (key : String) :
    get? key (Keyed.erase key map) = none := by
  induction map with
  | nil => rfl
  | cons head rest ih =>
      obtain ⟨first, tail⟩ := List.pairwise_cons.1 ordered
      rw [Keyed.erase]
      split
      · rename_i same
        exact get?_eq_none_of_below (same ▸ first)
      · rename_i different
        rw [get?, if_neg different, ih tail]

/-- A key is found between smaller and greater ones. -/
theorem get?_between {front rest : Keyed α} {key : String} {value : α}
    (ordered : Ordered (front ++ (key, value) :: rest)) :
    get? key (front ++ (key, value) :: rest) = some value := by
  induction front with
  | nil => simp [get?]
  | cons head front ih =>
      obtain ⟨first, tail⟩ := List.pairwise_cons.1 ordered
      have below : head.1 < key := first (key, value) (by simp)
      rw [List.cons_append, get?, if_neg (ne_of_lt below), ih tail]

theorem get?_of_mem (ordered : map.Ordered) {key : String} {value : α}
    (member : (key, value) ∈ map) : get? key map = some value := by
  obtain ⟨front, rest, rfl⟩ := List.append_of_mem member
  exact ordered.get?_between

/-- A value is put in the place of another one. -/
theorem put_between {front rest : Keyed α} {key : String} {value : α}
    (ordered : Ordered (front ++ (key, value) :: rest)) (other : α) :
    Keyed.put key other (front ++ (key, value) :: rest) = front ++ (key, other) :: rest := by
  induction front with
  | nil => rw [List.nil_append, List.nil_append, Keyed.put, if_neg (lt_irrefl _), if_pos rfl]
  | cons head front ih =>
      obtain ⟨first, tail⟩ := List.pairwise_cons.1 ordered
      have below : head.1 < key := first (key, value) (by simp)
      rw [List.cons_append, Keyed.put, if_neg (not_lt_of_gt below), if_neg (ne_of_lt below),
        ih tail, List.cons_append]

end Ordered

end RowQuery.Keyed
