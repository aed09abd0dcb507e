import RowQuery.Proofs.Query.OutputName
import RowQuery.Proofs.Steps

/-!
# Rows of joined tables

The cells of a result row stand in the order of the selected columns.  They are
decoded into one row by output names, and that row is taken apart by the position of
the table and the key of the column.  This file proves that nothing is lost or mixed
up on the way: each table gets its own stretch of the cells.
-/

namespace RowQuery

namespace Keyed

variable {α : Type}

theorem get?_extend_of_not_mem {key : String} {pairs : List (String × α)}
    (absent : key ∉ pairs.map Prod.fst) (map : Keyed α) :
    get? key (extend map pairs) = get? key map := by
  induction pairs generalizing map with
  | nil => rfl
  | cons pair pairs ih =>
      simp only [List.map_cons, List.mem_cons, not_or] at absent
      exact (ih absent.2 _).trans (get?_put_ne _ _ absent.1)

/-- Among pairs with distinct keys each is found again. -/
theorem get?_extend_of_mem {key : String} {value : α} {pairs : List (String × α)}
    (distinct : (pairs.map Prod.fst).Nodup) (member : (key, value) ∈ pairs) (map : Keyed α) :
    get? key (extend map pairs) = some value := by
  induction pairs generalizing map with
  | nil => cases member
  | cons pair pairs ih =>
      simp only [List.map_cons, List.nodup_cons] at distinct
      rcases List.mem_cons.1 member with rfl | member
      · exact (get?_extend_of_not_mem distinct.1 _).trans (get?_put_self _ _ _)
      · exact ih distinct.2 member _

theorem get?_ofList {key : String} {value : α} {pairs : List (String × α)}
    (distinct : (pairs.map Prod.fst).Nodup) (member : (key, value) ∈ pairs) :
    get? key (ofList pairs) = some value :=
  get?_extend_of_mem distinct member []

end Keyed

namespace Table

/-- The row of a table from its cells, which stand in the order of the columns. -/
def decodeRow (t : Table) (cells : List Cell) : Outcome Row := do
  let pairs ← (t.columns.zip cells).mapM fun (column, cell) => do
    let value ← column.decode cell
    .ok (column.key, value)
  .ok (Keyed.ofList pairs)

/-- The rows of several tables from their cells, those of each table behind those of
the table before it. -/
def decodeRows : List Table → List Cell → Outcome (List Row)
  | [], _ => .ok []
  | t :: ts, cells => do
      let row ← t.decodeRow (cells.take t.columns.length)
      let rows ← decodeRows ts (cells.drop t.columns.length)
      .ok (row :: rows)

end Table

/-- A cell of a result row with the position of its table, its column, its output
name and its value. -/
structure Entry where
  source : Nat
  column : Column
  name : String
  cell : Cell
  value : Value
  decoded : column.decode cell = .ok value

namespace Entry

/-- The column of a result that the cell is for. -/
def output (e : Entry) : OutputColumn :=
  .ofColumn e.name e.source e.column

/-- The value under the key of its column, if it is of the table at a position. -/
def cellOf? (source : Nat) (e : Entry) : Option (String × Value) :=
  if e.source = source then some (e.column.key, e.value) else none

theorem filterMap_cellOf?_self {source : Nat} {entries : List Entry}
    (own : ∀ e ∈ entries, e.source = source) :
    entries.filterMap (cellOf? source) = entries.map fun e => (e.column.key, e.value) := by
  rw [← List.filterMap_eq_map]
  exact List.filterMap_congr fun e member => if_pos (own e member)

theorem filterMap_cellOf?_other {source : Nat} {entries : List Entry}
    (foreign : ∀ e ∈ entries, e.source ≠ source) :
    entries.filterMap (cellOf? source) = [] :=
  List.filterMap_eq_nil_iff.2 fun e member => if_neg (foreign e member)

/-- The columns of tables, each with the position of its table. -/
def placesFrom : Nat → List Table → List (Nat × Column)
  | _, [] => []
  | n, t :: ts => t.columns.map (n, ·) ++ placesFrom (n + 1) ts

theorem le_of_mem_placesFrom {place : Nat × Column} {tables : List Table} :
    ∀ {n : Nat}, place ∈ placesFrom n tables → n ≤ place.1 := by
  induction tables with
  | nil => exact fun member => absurd member (by simp [placesFrom])
  | cons t ts ih =>
      intro n member
      rcases List.mem_append.1 member with own | later
      · obtain ⟨column, -, rfl⟩ := List.mem_map.1 own
        exact Nat.le_refl n
      · exact Nat.le_of_succ_le (ih later)

theorem map_snd_placesFrom (n : Nat) (tables : List Table) :
    (placesFrom n tables).map Prod.snd = tables.flatMap Table.columns := by
  induction tables generalizing n with
  | nil => rfl
  | cons t ts ih =>
      rw [placesFrom, List.map_append, ih, List.map_map, List.flatMap_cons]
      exact congrArg (· ++ _) (List.map_id _)

/-- The position of the table and the column. -/
def place (e : Entry) : Nat × Column :=
  (e.source, e.column)

theorem decodeRow_of_entries {t : Table} {entries : List Entry}
    (own : entries.map column = t.columns) :
    t.decodeRow (entries.map cell) =
      .ok (Keyed.ofList (entries.map fun e => (e.column.key, e.value))) := by
  rw [Table.decodeRow, ← own, List.zip_map', Except.bind_eq_ok_iff]
  refine ⟨_, Except.mapM_eq_ok_iff.2 ?_, rfl⟩
  rw [List.forall₂_map_left_iff, List.forall₂_map_right_iff, List.forall₂_same]
  intro e _
  simp only [e.decoded]
  rfl

/-- The entries of some tables are the rows of the tables. -/
theorem decodeRows_of_entries {tables : List Table} :
    ∀ {n : Nat} {entries : List Entry}, entries.map place = placesFrom n tables →
      Table.decodeRows tables (entries.map cell) =
        .ok ((List.range' n tables.length).map fun i =>
          Keyed.ofList (entries.filterMap (cellOf? i))) := by
  induction tables with
  | nil => exact fun _ => rfl
  | cons t ts ih =>
      intro n entries places
      obtain ⟨own, others, rfl, ownPlaces, otherPlaces⟩ := List.map_eq_append_iff.1 places
      have ownSource : ∀ e ∈ own, e.source = n := by
        intro e member
        have listed := List.mem_map_of_mem (f := place) member
        rw [ownPlaces] at listed
        obtain ⟨column, -, same⟩ := List.mem_map.1 listed
        exact (congrArg Prod.fst same).symm
      have otherSource : ∀ e ∈ others, n < e.source := by
        intro e member
        have listed := List.mem_map_of_mem (f := place) member
        rw [otherPlaces] at listed
        exact le_of_mem_placesFrom listed
      have ownColumns : own.map column = t.columns := by
        simpa [Function.comp_def, place] using congrArg (List.map Prod.snd) ownPlaces
      have width : t.columns.length = (own.map cell).length := by
        rw [← ownColumns, List.length_map, List.length_map]
      have rest : (List.range' (n + 1) ts.length).map (fun i =>
            Keyed.ofList ((own ++ others).filterMap (cellOf? i))) =
          (List.range' (n + 1) ts.length).map fun i =>
            Keyed.ofList (others.filterMap (cellOf? i)) := by
        refine List.map_congr_left fun i member => ?_
        have beyond : n < i := (List.mem_range'_1.1 member).1
        rw [List.filterMap_append, filterMap_cellOf?_other, List.nil_append]
        intro e own
        rw [ownSource e own]
        omega
      have here : (own ++ others).filterMap (cellOf? n) =
          own.map fun e => (e.column.key, e.value) := by
        rw [List.filterMap_append, filterMap_cellOf?_self ownSource, filterMap_cellOf?_other,
          List.append_nil]
        intro e other same
        have := otherSource e other
        omega
      rw [Table.decodeRows, List.map_append, width, List.take_left, List.drop_left,
        decodeRow_of_entries ownColumns, ih otherPlaces, List.length_cons, List.range'_succ,
        List.map_cons, rest, here]
      rfl

end Entry

namespace CompiledQuery

/-- A result row that can be decoded consists of entries, one for each column. -/
theorem exists_entries {places : List (Nat × Column)} :
    ∀ {names : List String} {cells : List Cell} {pairs : List (String × Value)},
      names.length = places.length → cells.length = places.length →
      (((places.zip names).map fun (place, name) =>
          OutputColumn.ofColumn name place.1 place.2).zip cells).mapM
        (fun (column, cell) => do
          let value ← column.decode cell
          Except.ok (ε := Fault) (column.name, value)) = .ok pairs →
      ∃ entries : List Entry, entries.map Entry.place = places ∧
        entries.map Entry.name = names ∧ entries.map Entry.cell = cells ∧
        pairs = entries.map fun e => (e.name, e.value) := by
  induction places with
  | nil =>
      intro names cells pairs named filled decoded
      obtain rfl := List.eq_nil_of_length_eq_zero named
      obtain rfl := List.eq_nil_of_length_eq_zero filled
      obtain rfl := Except.ok.inj decoded
      exact ⟨[], rfl, rfl, rfl, rfl⟩
  | cons place places ih =>
      intro names cells pairs named filled decoded
      cases names with
      | nil => simp at named
      | cons name names =>
          cases cells with
          | nil => simp at filled
          | cons cell cells =>
              rw [List.zip_cons_cons, List.map_cons, List.zip_cons_cons, List.mapM_cons] at decoded
              obtain ⟨pair, head, rest⟩ := Except.bind_eq_ok_iff.1 decoded
              obtain ⟨value, valueEq, pairEq⟩ := Except.bind_eq_ok_iff.1 head
              obtain ⟨pairs, tail, whole⟩ := Except.bind_eq_ok_iff.1 rest
              obtain rfl := Except.ok.inj pairEq
              obtain rfl := Except.ok.inj whole
              obtain ⟨entries, rfl, rfl, rfl, rfl⟩ :=
                ih (by simpa using named) (by simpa using filled) tail
              exact ⟨⟨place.1, place.2, name, cell, value, valueEq⟩ :: entries,
                rfl, rfl, rfl, rfl⟩

/-- Under distinct output names the row of each table holds its own cells. -/
theorem sourceRow_of_entries {q : CompiledQuery} {entries : List Entry}
    (distinct : (entries.map Entry.name).Nodup)
    (columns : q.columns = entries.map Entry.output) (source : Nat) :
    q.sourceRow (Keyed.ofList (entries.map fun e => (e.name, e.value))) source =
      Keyed.ofList (entries.filterMap (Entry.cellOf? source)) := by
  rw [sourceRow, columns, List.filterMap_map]
  refine congrArg Keyed.ofList (List.filterMap_congr fun e member => ?_)
  have found : Keyed.get? e.name (Keyed.ofList (entries.map fun e => (e.name, e.value))) =
      some e.value :=
    Keyed.get?_ofList (by rwa [List.map_map]) (List.mem_map.2 ⟨e, member, rfl⟩)
  simp [sourceCell?, Entry.output, OutputColumn.ofColumn, Entry.cellOf?, found]

theorem map_place_zipIdx (bindings : List Binding) (n : Nat) :
    ((bindings.zipIdx n).flatMap fun (b, i) => b.table.columns.map fun c => (i, b, c)).map
        (fun (i, _, c) => (i, c)) =
      Entry.placesFrom n (bindings.map Binding.table) := by
  induction bindings generalizing n with
  | nil => rfl
  | cons b bindings ih =>
      rw [List.zipIdx_cons, List.flatMap_cons, List.map_append, ih, List.map_map]
      rfl

theorem map_place_allColumns (bindings : List Binding) :
    (Workspace.allColumns bindings).map (fun (i, _, c) => (i, c)) =
      Entry.placesFrom 0 (bindings.map Binding.table) :=
  map_place_zipIdx bindings 0

theorem length_allColumns (w : Workspace) (bindings : List Binding) :
    (w.columnSelection bindings (Workspace.allColumns bindings)).columns.length =
      ((bindings.map Binding.table).flatMap Table.columns).length := by
  rw [← Entry.map_snd_placesFrom 0, ← map_place_allColumns, List.length_map, List.length_map]
  simp [Workspace.columnSelection, length_outputNames]

theorem length_of_decodeRow {q : CompiledQuery} {cells : List Cell} {row : Row}
    (decoded : q.decodeRow cells = .ok row) : cells.length = q.columns.length := by
  rw [decodeRow] at decoded
  split at decoded
  · cases decoded
  · rename_i filled
    exact not_not.1 filled

/-- A result row over all columns of some tables is taken apart into the rows of these
tables. -/
theorem decodeRows_eq_splitRow {w : Workspace} {bindings : List Binding} {q : CompiledQuery}
    (columns : q.columns =
      (w.columnSelection bindings (Workspace.allColumns bindings)).columns)
    {cells : List Cell} {row : Row} (decoded : q.decodeRow cells = .ok row) :
    Table.decodeRows (bindings.map Binding.table) cells =
      .ok (q.splitRow row bindings.length) := by
  let picked := Workspace.allColumns bindings
  let names := outputNames (picked.map fun (_, b, c) => (c.key, some b.label))
  have named : names.length = (picked.map fun (i, _, c) => (i, c)).length := by
    rw [length_outputNames, List.length_map, List.length_map]
  have placed : q.columns = ((picked.map fun (i, _, c) => (i, c)).zip names).map
      fun (place, name) => OutputColumn.ofColumn name place.1 place.2 := by
    rw [columns, List.zip_map_left, List.map_map]
    rfl
  have filled := length_of_decodeRow decoded
  rw [decodeRow, if_neg (not_not.2 filled)] at decoded
  obtain ⟨pairs, pairsEq, rowEq⟩ := Except.bind_eq_ok_iff.1 decoded
  obtain rfl := Except.ok.inj rowEq
  rw [placed] at pairsEq filled
  obtain ⟨entries, places, entryNames, rfl, rfl⟩ :=
    exists_entries named (by simp [filled, named]) pairsEq
  have outputs : q.columns = entries.map Entry.output := by
    rw [placed, ← places, ← entryNames, List.zip_map', List.map_map]
    rfl
  have distinct : (entries.map Entry.name).Nodup := by
    rw [entryNames]
    exact outputNames_nodup _
  rw [map_place_allColumns] at places
  rw [Entry.decodeRows_of_entries places, List.length_map, splitRow, List.range_eq_range']
  refine congrArg Except.ok (List.map_congr_left fun source _ => ?_)
  exact (sourceRow_of_entries distinct outputs source).symm

end CompiledQuery

end RowQuery
