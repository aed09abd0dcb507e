/-!
# Records by key

Finite maps from text keys, kept as a list of pairs in ascending order of the
keys.  The order is that of the code points, and every key occurs once as long
as the map is built by `put`.
-/

namespace RowQuery

/-- A finite map from text keys. -/
abbrev Keyed (α : Type) := List (String × α)

namespace Keyed

variable {α : Type}

/-- The value under a key. -/
def get? (key : String) : Keyed α → Option α
  | [] => none
  | (k, value) :: rest => if k = key then some value else get? key rest

def has (key : String) (map : Keyed α) : Bool :=
  (get? key map).isSome

/-- The map with a value under a key, in place of an earlier one. -/
def put (key : String) (value : α) : Keyed α → Keyed α
  | [] => [(key, value)]
  | (k, v) :: rest =>
      if key < k then (key, value) :: (k, v) :: rest
      else if k = key then (key, value) :: rest
      else (k, v) :: put key value rest

/-- The map without a key. -/
def erase (key : String) : Keyed α → Keyed α
  | [] => []
  | (k, v) :: rest => if k = key then rest else (k, v) :: erase key rest

/-- Put the pairs of a list one after the other. -/
def ofList (pairs : List (String × α)) : Keyed α :=
  pairs.foldl (fun map pair => put pair.1 pair.2 map) []

/-- Put all pairs of the second map into the first. -/
def extend (map more : Keyed α) : Keyed α :=
  more.foldl (fun map pair => put pair.1 pair.2 map) map

theorem get?_put_self (key : String) (value : α) (map : Keyed α) :
    get? key (put key value map) = some value := by
  induction map with
  | nil => simp [put, get?]
  | cons pair rest ih =>
      obtain ⟨k, v⟩ := pair
      simp only [put]
      split
      · simp [get?]
      · split
        · simp [get?]
        · rename_i different
          simp [get?, different, ih]

theorem get?_put_ne {key other : String} (value : α) (map : Keyed α)
    (different : other ≠ key) : get? other (put key value map) = get? other map := by
  induction map with
  | nil => simp [put, get?, Ne.symm different]
  | cons pair rest ih =>
      obtain ⟨k, v⟩ := pair
      simp only [put]
      split
      · simp [get?, Ne.symm different]
      · split
        · rename_i same
          subst same
          simp [get?, Ne.symm different]
        · simp [get?, ih]

end Keyed

end RowQuery
