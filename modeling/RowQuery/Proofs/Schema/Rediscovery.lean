import RowQuery.Proofs.Codec.DefaultText
import RowQuery.Proofs.Table.WellFormed
import RowQuery.Proofs.Types.RoundTrip

/-!
# Declared columns are found again

The catalog of SQLite reports the type and the default of a column as the texts that declared it.
From these texts discovery finds the type that was declared, and with it the kind of the values,
unless an integer or a double took a decimal type because no other had room.  The default is found
too, if it is not one of bytes; only that of a column of row numbers is left out, since the database
fills it in.
-/

namespace RowQuery

open RowQuery.Number RowQuery.Database

namespace Discovery

/-- The kinds of values that have column types of their own. -/
def storedKinds : List Kind := .bytes :: restoredKinds

end Discovery

/-! ## The kind of a type -/

namespace TypeCatalog

open Discovery

variable {c : TypeCatalog} {t : ColumnType}

theorem family_of_firstOf {family : Family} {kind : Kind} (chosen : c.firstOf family kind = .ok t) :
    t.family = family := by
  unfold firstOf at chosen
  split at chosen
  · rename_i u rest split
    obtain rfl := Except.ok.inj chosen
    exact (mem_family.mp (split ▸ List.mem_cons_self)).2
  · cases chosen

theorem family_of_numeric {digits places : Nat} (chosen : c.numeric digits places = .ok t) :
    t.family = .numeric := by
  unfold numeric at chosen
  split at chosen
  · rename_i u found
    obtain rfl := Except.ok.inj chosen
    rw [u.setPrecision_family]
    exact (mem_family.mp (List.mem_of_find?_eq_some found)).2
  · cases chosen

theorem family_of_sized {family : Family} {bytes : Nat} (chosen : c.sized family bytes = .ok t) :
    t.family = family := by
  by_cases largest : bytes = 0
  · simp only [sized, largest, if_true] at chosen
    split at chosen
    · rename_i u last
      obtain rfl := Except.ok.inj chosen
      exact (mem_family.mp (List.mem_of_getLast? last)).2
    · cases chosen
  · simp only [sized, largest, if_false] at chosen
    split at chosen
    · rename_i u found
      obtain rfl := Except.ok.inj chosen
      rw [u.setBytes_family]
      exact (mem_family.mp (List.mem_of_find?_eq_some found)).2
    · cases chosen

theorem family_of_boolean (present : c.family .boolean ≠ []) (chosen : c.boolean = .ok t) :
    t.family = .boolean := by
  obtain ⟨u, rest, split⟩ := List.exists_cons_of_ne_nil present
  unfold boolean at chosen
  rw [split] at chosen
  obtain rfl := Except.ok.inj chosen
  exact (mem_family.mp (split ▸ List.mem_cons_self)).2

theorem family_of_integer {request : TypeRequest} (chosen : c.integer request = .ok t) :
    t.family = .integer ∨ t.family = .numeric := by
  simp only [integer] at chosen
  split at chosen
  · cases chosen
  · split at chosen
    · rename_i u found
      obtain rfl := Except.ok.inj chosen
      exact .inl (mem_family.mp (List.mem_of_find?_eq_some found)).2
    · split at chosen
      · cases chosen
      · exact .inr (family_of_numeric chosen)

theorem family_of_floating {request : TypeRequest} (chosen : c.floating request = .ok t) :
    t.family = .float ∨ t.family = .numeric := by
  simp only [floating] at chosen
  split at chosen
  · rename_i u found
    obtain rfl := Except.ok.inj chosen
    exact .inl (mem_family.mp (List.mem_of_find?_eq_some found)).2
  · exact .inr (family_of_numeric chosen)

/-- A type that is chosen for a kind stores values of this kind, or it is a decimal type that has
the room for wide integers and precise doubles. -/
theorem kind_of_resolve (present : c.family .boolean ≠ []) {kind : Kind} {request : TypeRequest}
    (stored : kind ∈ storedKinds) (free : request.explicit = none)
    (resolved : c.resolve kind request = .ok t) :
    t.family.kind = kind ∨ (kind = .int ∨ kind = .float) ∧ t.family = .numeric := by
  simp only [resolve, free] at resolved
  cases kind with
  | bool => exact .inl (congrArg Family.kind (family_of_boolean present resolved))
  | int =>
      rcases family_of_integer resolved with integral | numeric
      · exact .inl (congrArg Family.kind integral)
      · exact .inr ⟨.inl rfl, numeric⟩
  | float =>
      rcases family_of_floating resolved with float | numeric
      · exact .inl (congrArg Family.kind float)
      · exact .inr ⟨.inr rfl, numeric⟩
  | decimal => exact .inl (congrArg Family.kind (family_of_numeric resolved))
  | text => exact .inl (congrArg Family.kind (family_of_sized resolved))
  | bytes => exact .inl (congrArg Family.kind (family_of_sized resolved))
  | date => exact .inl (congrArg Family.kind (family_of_firstOf resolved))
  | time => exact .inl (congrArg Family.kind (family_of_firstOf resolved))
  | datetime => exact .inl (congrArg Family.kind (family_of_firstOf resolved))
  | _ => simp [storedKinds, restoredKinds] at stored

end TypeCatalog

namespace Table

/-! ## One more column -/

variable {t : Table} {d : Dialect}

/-- A column with a new key and a new name can be declared in a table that does not exist yet. -/
theorem define_of_fresh {s : ColumnSpec} {column : Column} (draft : t.state = .uncreated)
    (built : s.build t.name d = .ok column) (freshKey : s.key ∉ t.columns.map Column.key)
    (freshName : column.name ∉ t.columns.map Column.name) :
    t.define d s = .ok (t.withColumn d column) := by
  have absent : t.column? s.key = none := by
    rw [column?, List.find?_eq_none]
    intro other member same
    exact freshKey (List.mem_map.mpr ⟨other, member, of_decide_eq_true same⟩)
  have distinct : (t.columns.any fun c => c.name = column.name) = false := by
    rw [List.any_eq_false]
    intro other member same
    exact freshName (List.mem_map.mpr ⟨other, member, of_decide_eq_true same⟩)
  unfold define
  rw [ensureLive_of_uncreated draft]
  change (if t.isCreated = true then _ else t.addColumn d s) = _
  rw [isCreated_of_uncreated draft, if_neg Bool.false_ne_true, addColumn, absent]
  change (s.build t.name d >>= _) = _
  rw [built]
  change (if (t.columns.any fun c => c.name = column.name) = true then _ else _) = _
  rw [distinct, if_neg Bool.false_ne_true]
  unfold withColumn keyIndices
  split <;> simp

/-- The last column of a table is changed by its key. -/
theorem updateColumn_append {change : Column → Column} {column : Column} {columns : List Column}
    (fresh : column.key ∉ columns.map Column.key) :
    updateColumn change column.key (columns ++ [column]) = columns ++ [change column] := by
  induction columns with
  | nil => simp [updateColumn]
  | cons other columns ih =>
      rw [List.map_cons, List.mem_cons, not_or] at fresh
      rw [List.cons_append, updateColumn, if_neg (Ne.symm fresh.1), ih fresh.2, List.cons_append]

end Table

namespace Discovery

/-! ## The rows of the catalog -/

/-- A declared column and its place in the primary key, counted from one. -/
structure Entry where
  column : Column
  position : Int64

namespace Entry

/-- The column was built from a declaration that leaves the choice of the type to the catalog. -/
def Declared (table : String) (e : Entry) : Prop :=
  ∃ s : ColumnSpec, s.request.explicit = none ∧ s.build table Dialect.sqlite = .ok e.column

/-- The type as the declaration writes it. -/
def typeText (e : Entry) : String :=
  if e.column.isGenerated && e.column.isKey then "INTEGER" else e.column.type.declared

/-- The default as the declaration writes it. -/
def defaultText? (e : Entry) : Option String :=
  e.column.default.bind fun value => (e.column.encode Dialect.sqlite value).toOption

/-- The database takes the column for its numbers of rows. -/
def numbersRows (e : Entry) : Bool :=
  e.position = 1 && Text.asciiUpper e.typeText = "INTEGER"

/-- The row of the column in answer to the query for the columns of its table. -/
def row (e : Entry) : List Cell :=
  [.text e.column.name, .text e.typeText, .null, .null, .null, .int e.position,
    (e.defaultText?.map Cell.text).getD .null, .int (if e.numbersRows then 1 else 0)]

/-- The type that is found for the column. -/
def foundType (e : Entry) : ColumnType :=
  if e.column.isGenerated && e.column.isKey then
    (ColumnType.integerOf "INTEGER" 8).withSynonyms ["int", "bigint", "smallint", "tinyint"]
  else e.column.type

/-- What the row says. -/
def described (e : Entry) : CatalogColumn where
  name := e.column.name
  type := e.foundType
  isKey := e.position != 0
  isGenerated := e.numbersRows
  default := e.defaultText?

/-- The column that is declared for the row, without a default. -/
def drafted (e : Entry) : Column :=
  let spec := e.described.spec
  { key := spec.key, name := spec.key, quotedName := Dialect.sqlite.quoteName spec.key,
    kind := spec.kind, type := e.foundType, isKey := spec.isKey, isGenerated := spec.isGenerated }

/-- The column that is found. -/
def found (e : Entry) : Column :=
  e.described.complete e.drafted

variable {table : String} {e : Entry}

/-- The type of a declared column was chosen for its kind. -/
theorem exists_resolve (declared : e.Declared table) :
    ∃ request : TypeRequest, request.explicit = none ∧
      Dialect.sqlite.types.resolve e.column.kind request = .ok e.column.type := by
  obtain ⟨s, free, built⟩ := declared
  obtain ⟨type, resolved, same⟩ := Table.build_eq built
  have kind : e.column.kind = s.kind := congrArg Column.kind same
  have chosen : e.column.type = type := congrArg Column.type same
  exact ⟨s.request, free, by rw [kind, chosen, resolved]⟩

theorem typeText_eq (e : Entry) : e.typeText = e.foundType.declared := by
  unfold typeText foundType
  split <;> rfl

theorem exists_setting (declared : e.Declared table) :
    ∃ u ∈ Dialect.sqlite.types.registered, u.Setting e.foundType := by
  obtain ⟨request, free, resolved⟩ := exists_resolve declared
  unfold foundType
  split
  · exact ⟨_, by decide, .plain⟩
  · exact TypeCatalog.exists_setting_of_resolve free resolved

/-- The type is found from the text that declares it, in any case of letters. -/
theorem ofTypeName_written (declared : e.Declared table) {written : String}
    (same : Text.sameIgnoringCase written e.typeText = true) :
    Dialect.sqlite.types.ofTypeName written none none none = .ok e.foundType := by
  obtain ⟨u, known, setting⟩ := exists_setting declared
  have text : written.toList = [] ++ written.toList ++ [] := by simp
  rw [typeText_eq, Text.sameIgnoringCase, beq_iff_eq] at same
  exact TypeCatalog.ofTypeName_of_setting (BuiltinDialect.sqlite.types_form u known)
    (BuiltinDialect.sqlite.types_tell u known) setting text (by simp) (by simp) same

/-- Only integers number rows. -/
theorem kind_of_numbersRows (declared : e.Declared table) (numbers : e.numbersRows = true) :
    e.foundType.family.kind = .int := by
  have upper : Text.asciiUpper e.typeText = "INTEGER" :=
    of_decide_eq_true (Bool.and_eq_true_iff.mp numbers).2
  have same : Text.sameIgnoringCase "INTEGER" e.typeText = true := by
    rw [← upper, Text.sameIgnoringCase, Text.asciiUpper, String.toList_ofList, List.map_map,
      beq_iff_eq]
    exact List.map_congr_left fun c _ => Char.toLower_toUpper_eq_toLower c
  have integer : Dialect.sqlite.types.ofTypeName "INTEGER" none none none =
      .ok ((ColumnType.integerOf "INTEGER" 8).withSynonyms
        ["int", "bigint", "smallint", "tinyint"]) := rfl
  rw [← Except.ok.inj (integer.symm.trans (ofTypeName_written declared same))]
  rfl

theorem read_row (declared : e.Declared table) :
    CatalogColumn.read Dialect.sqlite.types table e.row = .ok e.described := by
  have generated : cellFlag (.int (if e.numbersRows then 1 else 0)) = e.numbersRows := by
    cases e.numbersRows <;> rfl
  have default : cellText? ((e.defaultText?.map Cell.text).getD .null) = e.defaultText? := by
    cases e.defaultText? <;> rfl
  have unnumbered : cellNumber? .null = none := rfl
  simp only [CatalogColumn.read, row, cellAt, List.getElem?_cons_zero, List.getElem?_cons_succ,
    Option.getD_some, unnumbered, Option.map_none, generated, default]
  simp only [cellText?, Option.getD_some, ofTypeName_written declared (beq_self_eq_true _)]
  rfl

theorem build_described (declared : e.Declared table) :
    e.described.spec.build table Dialect.sqlite = .ok e.drafted := by
  obtain ⟨s, -, built⟩ := declared
  have named : e.column.name = s.columnName := (Table.build_eq_ok built).2.1
  obtain ⟨_, checked, -⟩ := Except.bind_eq_ok_iff.1 built
  have unreserved : (Dialect.sqlite.reservedNames.any fun name =>
      Text.sameIgnoringCase name e.described.spec.columnName) = false := by
    change (Dialect.sqlite.reservedNames.any fun name =>
      Text.sameIgnoringCase name e.column.name) = false
    rw [named, ← Bool.not_eq_true]
    intro reserved
    rw [ColumnSpec.check, if_pos reserved] at checked
    cases checked
  have integral : e.described.spec.isGenerated = true → e.described.spec.kind = .int := by
    intro generated
    exact of_decide_eq_true (Bool.and_eq_true_iff.mp generated).2
  have plain : e.described.spec.givenDefault = none := rfl
  have allowed : e.described.spec.check table Dialect.sqlite = .ok () := by
    simpa [ColumnSpec.check, unreserved, plain] using integral
  have unsequenced (generated : Bool) (column : String) :
      (if generated then Dialect.sqlite.sequenceName table column else none) = none := by
    cases generated <;> rfl
  unfold ColumnSpec.build
  rw [allowed]
  change Except.ok _ = _
  rw [unsequenced]
  rfl

/-- One more row leads to one more column. -/
theorem takeColumn_row {t : Table} (declared : e.Declared t.name) (draft : t.state = .uncreated)
    (keyed : t.columns.map Column.key = t.columns.map Column.name)
    (fresh : e.column.name ∉ t.columns.map Column.name) :
    takeColumn Dialect.sqlite t e.row = .ok { t with columns := t.columns ++ [e.found] } := by
  have freshKey : e.drafted.key ∉ t.columns.map Column.key := keyed ▸ fresh
  have defined : t.define Dialect.sqlite e.described.spec =
      .ok (t.withColumn Dialect.sqlite e.drafted) :=
    Table.define_of_fresh draft (build_described declared) freshKey fresh
  unfold takeColumn
  rw [read_row declared]
  change (t.define Dialect.sqlite e.described.spec >>= _) = _
  rw [defined, Table.withColumn_unindexed rfl]
  change Except.ok { t with
    columns := Table.updateColumn e.described.complete e.drafted.key
      (t.columns ++ [e.drafted]) } = _
  rw [Table.updateColumn_append freshKey]
  rfl

/-- The rows of a table lead to its columns, one by one. -/
theorem foldlM_rows {entries : List Entry} {t : Table} (draft : t.state = .uncreated)
    (keyed : t.columns.map Column.key = t.columns.map Column.name)
    (declared : ∀ e ∈ entries, e.Declared t.name)
    (distinct : (t.columns.map Column.name ++ entries.map fun e => e.column.name).Nodup) :
    (entries.map row).foldlM (takeColumn Dialect.sqlite) t =
      .ok { t with columns := t.columns ++ entries.map found } := by
  induction entries generalizing t with
  | nil =>
      rw [List.map_nil, List.map_nil, List.append_nil]
      rfl
  | cons e entries ih =>
      rw [List.forall_mem_cons] at declared
      have fresh : e.column.name ∉ t.columns.map Column.name := by
        intro member
        exact List.disjoint_of_nodup_append distinct member List.mem_cons_self
      have kept := Table.complete_spec e.described e.drafted
      have key : e.found.key = e.column.name := kept.1
      have name : e.found.name = e.column.name := kept.2.1
      rw [List.map_cons, List.foldlM_cons, takeColumn_row declared.1 draft keyed fresh]
      have rest := ih (t := { t with columns := t.columns ++ [e.found] }) draft
        (by simp [keyed, key, name]) declared.2 (by simpa [name] using distinct)
      change (entries.map row).foldlM (takeColumn Dialect.sqlite) _ = _
      rw [rest, List.append_assoc]
      rfl

/-! ## What is found -/

/-- The column holds values of a kind that has types of its own, its database generates none of
them, and its default is one of them. -/
structure Ordinary (e : Entry) : Prop where
  given : e.column.isGenerated = false
  stored : e.column.kind ∈ storedKinds
  suited : ∀ value ∈ e.column.default, value.kind = e.column.kind

instance (e : Entry) : Decidable e.Ordinary :=
  decidable_of_iff (e.column.isGenerated = false ∧ e.column.kind ∈ storedKinds ∧
      ∀ value ∈ e.column.default, value.kind = e.column.kind)
    ⟨fun ⟨given, stored, suited⟩ => ⟨given, stored, suited⟩,
      fun ordinary => ⟨ordinary.given, ordinary.stored, ordinary.suited⟩⟩

/-- What is found of a column.  Its default is the same unless the database numbers rows in it;
nothing is said of bytes.  Where a decimal type had to do, the default is the decimal that its text
denotes, and for an integer that is the same number. -/
structure Restored (e : Entry) (found : Column) : Prop where
  declaration : Dialect.sqlite.columnDefinition e.column =
    .ok (e.column.quotedName ++ " " ++ e.typeText ++
      (e.defaultText?.map (" DEFAULT " ++ ·)).getD "")
  name : found.name = e.column.name
  type : found.type = e.column.type
  kind : found.kind = e.column.type.family.kind
  room : found.kind = e.column.kind ∨
    (e.column.kind = .int ∨ e.column.kind = .float) ∧ e.column.type.family = .numeric
  generated : found.isGenerated = e.numbersRows
  numbered : e.numbersRows = true → found.default = none
  absent : e.column.default = none → found.default = none
  same : ∀ value, e.column.default = some value → e.numbersRows = false → value.kind ≠ .bytes →
    found.kind = value.kind → ∃ read, found.default = some read ∧ read.Same value
  denoted : ∀ value, e.column.default = some value → found.kind ≠ value.kind →
    found.default = e.defaultText?.bind fun text => (Decimal.read? text.toList).map Value.decimal
  number : ∀ i, e.column.default = some (.int i) → found.kind = .decimal →
    ∃ d, found.default = some (.decimal d) ∧ d.compare (.ofInt i) = .eq

/-- The catalog completes a column with a sequence or a default. -/
theorem complete_keeps (described : CatalogColumn) (column : Column) :
    (described.complete column).kind = column.kind ∧
      (described.complete column).type = column.type ∧
      (described.complete column).isGenerated = column.isGenerated := by
  unfold CatalogColumn.complete
  repeat' split
  all_goals exact ⟨rfl, rfl, rfl⟩

theorem foundType_of_given (given : e.column.isGenerated = false) :
    e.foundType = e.column.type := by
  simp [foundType, given]

theorem room_of_declared (declared : e.Declared table) (stored : e.column.kind ∈ storedKinds) :
    e.column.type.family.kind = e.column.kind ∨
      (e.column.kind = .int ∨ e.column.kind = .float) ∧ e.column.type.family = .numeric := by
  obtain ⟨request, free, resolved⟩ := exists_resolve declared
  exact TypeCatalog.kind_of_resolve (by decide) stored free resolved

/-- The default of a column that was built has a literal. -/
theorem exists_literal (declared : e.Declared table) {value : Value}
    (default : e.column.default = some value) :
    ∃ literal, e.column.encode Dialect.sqlite value = .ok literal ∧
      e.defaultText? = some literal := by
  obtain ⟨s, -, built⟩ := declared
  obtain ⟨literal, encoded⟩ := (Table.definable_of_build built).encoded value default
  refine ⟨literal, encoded, ?_⟩
  rw [defaultText?, default, Option.bind_some, encoded]
  rfl

/-- Without a sequence and without numbers of rows, the default that is found is the value that its
codec reads. -/
theorem found_default {literal content : String} (written : e.defaultText? = some literal)
    (reports : Reports literal content) (given : e.drafted.isGenerated = false) :
    e.found.default =
      ((Codec.ofKind e.drafted.kind e.foundType).decode? (.text content)).filter
        fun value => !value.isNull := by
  have described : e.described.default = some literal := written
  have unsequenced : e.described.sequence? = none := by
    rw [CatalogColumn.sequence?, described]
    exact reports.unsequenced
  have decoded (read : Option Value) (fault : Fault) :
      ((Codec.orFault fault read).toOption >>= fun value =>
        if value.isNull then none else some value) = read.filter fun value => !value.isNull := by
    cases read with
    | none => rfl
    | some value =>
        change (if value.isNull then none else some value) = _
        rw [Option.filter_some]
        cases value.isNull <;> rfl
  have value : e.described.defaultValue? e.drafted =
      ((Codec.ofKind e.drafted.kind e.foundType).decode? (.text content)).filter
        fun value => !value.isNull := by
    rw [CatalogColumn.defaultValue?, described]
    change (Codec.orFault _ ((Codec.ofKind _ _).decode? (.text (plainDefault literal)))).toOption
      >>= _ = _
    rw [reports.plain]
    exact decoded _ _
  unfold found CatalogColumn.complete
  rw [unsequenced, given, value]
  cases (Codec.ofKind e.drafted.kind e.foundType).decode? (.text content) with
  | none => rfl
  | some read =>
      rw [Option.filter_some]
      cases read.isNull <;> rfl

/-- The default of a declared column is not NULL. -/
theorem isNull_default (declared : e.Declared table) {value : Value}
    (default : e.column.default = some value) : value.isNull = false := by
  obtain ⟨s, -, built⟩ := declared
  obtain ⟨type, -, same⟩ := Table.build_eq built
  have given : s.default.filter (fun value => !value.isNull) = some value :=
    (congrArg Column.default same).symm.trans default
  simpa using (Option.filter_eq_some_iff.mp given).2

/-- The catalog reports the texts of the declaration. -/
theorem columnDefinition_eq (declared : e.Declared table) (given : e.column.isGenerated = false) :
    Dialect.sqlite.columnDefinition e.column =
      .ok (e.column.quotedName ++ " " ++ e.typeText ++
        (e.defaultText?.map (" DEFAULT " ++ ·)).getD "") := by
  have typed : e.typeText = e.column.type.declared := by
    rw [typeText_eq, foundType_of_given given]
  have clause : Dialect.sqlite.defaultClause e.column =
      .ok ((e.defaultText?.map (" DEFAULT " ++ ·)).getD "") := by
    unfold Dialect.defaultClause
    cases default : e.column.default with
    | none =>
        rw [defaultText?, default]
        rfl
    | some value =>
        obtain ⟨literal, encoded, written⟩ := exists_literal declared default
        rw [written, Option.filter_some, isNull_default declared default]
        change (e.column.encode Dialect.sqlite value >>= _) = _
        rw [encoded]
        rfl
  unfold Dialect.columnDefinition
  change (if (e.column.isGenerated && e.column.isKey) = true then _ else _) = _
  rw [given, clause, typed]
  rfl

namespace Ordinary

variable (ordinary : e.Ordinary) (declared : e.Declared table)
include ordinary declared

/-- The literal of the default is that of its own kind. -/
theorem exists_encode {value : Value} (default : e.column.default = some value) :
    ∃ literal, (Codec.ofKind value.kind e.foundType).encode Dialect.sqlite e.foundType value =
      .ok literal ∧ e.defaultText? = some literal := by
  obtain ⟨literal, encoded, written⟩ := exists_literal declared default
  refine ⟨literal, ?_, written⟩
  rw [ordinary.suited value default, foundType_of_given ordinary.given]
  exact encoded

theorem unsequenced : e.described.sequence? = none := by
  rw [CatalogColumn.sequence?]
  change e.defaultText?.bind sequenceOf? = none
  cases default : e.column.default with
  | none => rw [defaultText?, default]; rfl
  | some value =>
      obtain ⟨literal, encoded, written⟩ := ordinary.exists_encode declared default
      rw [written, Option.bind_some]
      have stored : value.kind ∈ storedKinds := ordinary.suited value default ▸ ordinary.stored
      rcases List.mem_cons.mp stored with bytes | restored
      · cases value <;> cases bytes
        obtain rfl := Except.ok.inj encoded
        exact sequenceOf?_bytesLiteral _
      · obtain ⟨content, read, reports, -, -⟩ := exists_decode?_reported restored encoded
        exact reports.unsequenced

theorem drafted_isGenerated : e.drafted.isGenerated = e.numbersRows := by
  change ((e.numbersRows || e.described.sequence?.isSome) && decide (_ = Kind.int)) = e.numbersRows
  rw [ordinary.unsequenced declared, Option.isSome_none, Bool.or_false]
  cases numbers : e.numbersRows with
  | false => rfl
  | true => exact decide_eq_true (kind_of_numbersRows declared numbers)

theorem found_numbered (numbers : e.numbersRows = true) : e.found.default = none := by
  unfold found CatalogColumn.complete
  rw [ordinary.unsequenced declared, ordinary.drafted_isGenerated declared, numbers]
  rfl

theorem found_absent (absent : e.column.default = none) : e.found.default = none := by
  have unwritten : e.described.defaultValue? e.drafted = none := by
    have described : e.described.default = none := by
      change e.defaultText? = none
      rw [defaultText?, absent, Option.bind_none]
    rw [CatalogColumn.defaultValue?, described]
    rfl
  unfold found CatalogColumn.complete
  rw [ordinary.unsequenced declared, unwritten]
  cases e.drafted.isGenerated <;> rfl

/-- A default of the kind of its type is found as it was. -/
theorem found_same {value : Value} (default : e.column.default = some value)
    (free : e.numbersRows = false) (simple : value.kind ≠ .bytes)
    (kind : e.foundType.family.kind = value.kind) :
    ∃ read, e.found.default = some read ∧ read.Same value := by
  obtain ⟨literal, encoded, written⟩ := ordinary.exists_encode declared default
  have restored : value.kind ∈ restoredKinds :=
    (List.mem_cons.mp (ordinary.suited value default ▸ ordinary.stored)).resolve_left simple
  obtain ⟨content, read, reports, decoded, same⟩ := exists_decode?_reported restored encoded
  have given := (ordinary.drafted_isGenerated declared).trans free
  have present : read.isNull = false := by
    cases read with
    | null =>
        obtain rfl : Value.null = value := same
        exact absurd restored (by decide)
    | _ => rfl
  refine ⟨read, ?_, same⟩
  rw [found_default written reports given]
  change ((Codec.ofKind e.foundType.family.kind e.foundType).decode? _).filter _ = _
  rw [kind, decoded, Option.filter_some, present]
  rfl

/-- In a column of decimals an integer or a double is written as a decimal. -/
theorem found_denoted {value : Value} (default : e.column.default = some value)
    (decimal : e.foundType.family = .numeric) (wide : value.kind = .int ∨ value.kind = .float) :
    e.found.default =
      e.defaultText?.bind fun text => (Decimal.read? text.toList).map Value.decimal := by
  obtain ⟨literal, encoded, written⟩ := ordinary.exists_encode declared default
  have free : e.numbersRows = false := by
    rw [← Bool.not_eq_true]
    intro numbers
    have integral := kind_of_numbersRows declared numbers
    rw [decimal] at integral
    cases integral
  have given := (ordinary.drafted_isGenerated declared).trans free
  have plain : Reports literal literal ∧ Text.trimChars literal.toList = literal.toList := by
    rcases wide with int | float
    · cases value <;> cases int
      obtain rfl := BuiltinDialect.eq_of_encodeInt encoded
      exact ⟨reports_intText _, Text.trimChars_of_unblank (IsNumber.int _).unblank⟩
    · cases value <;> cases float
      obtain ⟨number, finite, rfl⟩ := eq_of_encode_float encoded
      exact ⟨reports_exactText number finite,
        Text.trimChars_of_unblank (IsNumber.exact number finite).unblank⟩
  have kind : e.drafted.kind = .decimal := congrArg Family.kind decimal
  rw [found_default written plain.1 given, kind, written, Option.bind_some]
  change ((Decimal.read? (Text.trimChars literal.toList)).map Value.decimal).filter _ = _
  rw [plain.2]
  cases Decimal.read? literal.toList <;> rfl

theorem found_number {i : Int64} (default : e.column.default = some (.int i))
    (decimal : e.foundType.family = .numeric) :
    ∃ d, e.found.default = some (.decimal d) ∧ d.compare (.ofInt i) = .eq := by
  obtain ⟨literal, encoded, written⟩ := ordinary.exists_encode declared default
  obtain rfl := BuiltinDialect.eq_of_encodeInt encoded
  obtain ⟨d, read, same⟩ := (Decimal.ofInt i).exists_read?_toText
  refine ⟨d, ?_, same⟩
  rw [ordinary.found_denoted declared default decimal (.inl rfl), written, Option.bind_some,
    ← Decimal.toText_ofInt, read]
  rfl

theorem restored : Restored e e.found := by
  have type := foundType_of_given ordinary.given
  have kept := complete_keeps e.described e.drafted
  have kind : e.found.kind = e.foundType.family.kind := kept.1
  have room := type ▸ room_of_declared declared ordinary.stored
  have wide {value : Value} (default : e.column.default = some value)
      (other : e.found.kind ≠ value.kind) :
      e.foundType.family = .numeric ∧ (value.kind = .int ∨ value.kind = .float) := by
    rw [ordinary.suited value default] at other ⊢
    rcases room with same | ⟨wide, decimal⟩
    · exact absurd (kind.trans same) other
    · exact ⟨decimal, wide⟩
  exact
    { declaration := columnDefinition_eq declared ordinary.given
      name := (Table.complete_spec e.described e.drafted).2.1
      type := kept.2.1.trans type
      kind := type ▸ kind
      room := by rwa [kind, ← type]
      generated := kept.2.2.trans (ordinary.drafted_isGenerated declared)
      numbered := ordinary.found_numbered declared
      absent := ordinary.found_absent declared
      same := fun value default free simple same =>
        ordinary.found_same declared default free simple (kind.symm.trans same)
      denoted := fun value default other =>
        ordinary.found_denoted declared default (wide default other).1 (wide default other).2
      number := fun i default decimal =>
        ordinary.found_number declared default (wide default (by rw [decimal]; nofun)).1 }

end Ordinary

end Entry

/-! ## Tables -/

/-- Indices on the columns of a table do not change the columns. -/
theorem takeIndices_columns {t : Table} (seen : List String) {indices : List Index}
    (known : ∀ i ∈ indices, i.column ∈ t.columns.map Column.name) :
    ∃ t', takeIndices t seen indices = .ok t' ∧ t'.columns = t.columns := by
  induction indices generalizing t seen with
  | nil => exact ⟨t, rfl, rfl⟩
  | cons index rest ih =>
      rw [List.forall_mem_cons] at known
      rw [takeIndices]
      split
      · exact ih _ known.2
      · have present : (t.columns.any fun c => c.name = index.column) = true := by
          simpa using known.1
        rw [present]
        exact ih (t := t.attachIndex index) _ known.2

section Archive

/-- A text whose default looks like a cast in brackets. -/
def note : ColumnSpec :=
  { key := "note", kind := .text, default := some (.text "it's (new)::text") }

/-- An integer of sixteen bytes. -/
def total : ColumnSpec :=
  { key := "total", kind := .int, request := { bytes := some 16 }, default := some (.int 42) }

/-- The columns of a table of accounts. -/
def accounts : List Entry :=
  ([note, total].filterMap fun s => (s.build "account" Dialect.sqlite).toOption).map (⟨·, 0⟩)

/-- A database with the table. -/
def archive : Database where
  workspace := { dialect := .sqlite, functions := {} }
  recorder := Recorder.scripted {} "SELECT n" (.ok { rows := accounts.map Entry.row })

theorem accounts_declared : ∀ e ∈ accounts, e.Declared "account" := by
  have free : ∀ s ∈ [note, total], s.request.explicit = none := by decide
  intro e member
  obtain ⟨column, built, rfl⟩ := List.mem_map.mp member
  obtain ⟨s, listed, built⟩ := List.mem_filterMap.mp built
  exact ⟨s, free s listed, Except.toOption_eq_some_iff.mp built⟩

theorem accounts_ordinary : ∀ e ∈ accounts, e.Ordinary := by
  decide +kernel

end Archive

end Discovery

end RowQuery
