import RowQuery.Dialect.Builtin
import RowQuery.Proofs.Condition.Shape
import RowQuery.Proofs.Piece
import RowQuery.Proofs.Table.Declared
import RowQuery.Table.Rows

/-!
# Restrictions by key

A row is addressed by the values of its key columns.  Where the restriction by the key of a
row has an exact SQL form, this is the conjunction of one equation for each key column, with
a literal of the value of the row.
-/

namespace RowQuery

/-- A literal of a value in an equation with a column: in the type of the column if it is a
value of that, and otherwise in a type of its own. -/
def Column.Literal (d : Dialect) (c : Column) (value : Value) (text : String) : Prop :=
  (value.kind = c.kind ∧ c.encode d value = .ok text) ∨
    (∃ type, (Codec.ofKind value.kind type).encode d type value = .ok text) ∨
    ∃ b, value = .bool b ∧ text = d.truthLiteral b

/-- An equation of a key column with the value of a row. -/
def Column.Equation (d : Dialect) (row : Row) (c : Column) (sql : String) : Prop :=
  ∃ value text, Workspace.givenValue? row c = some value ∧ c.Literal d value text ∧
    sql = (if c.kind = .text then d.compareText else d.compare) c.quotedName .eq text

/-- Values that can be compared are of the same kind, or numbers. -/
theorem Comparison.kinds_of_accepts {op : Comparison} {l r : Kind}
    (accepted : op.accepts l r = true) :
    r = l ∧ l ≠ .null ∨ l.isNumeric = true ∧ r.isNumeric = true := by
  cases l <;> cases r <;> simp_all [accepts, Kind.isNumeric]

theorem Lambda.body_of_make {params : List String} {body : Term} {e : Lambda}
    (made : Lambda.make params body = .ok e) : e.body = body := by
  unfold Lambda.make at made
  split at made
  · obtain rfl := Except.ok.inj made
    rfl
  · cases made

/-- A conjunction takes in further terms, one after the other. -/
theorem Term.foldl_and_all (ls : List Term) {terms : List Term}
    (plain : ∀ term ∈ terms, ∀ items, term ≠ .all items) :
    terms.foldl Term.and (.all ls) = .all (ls ++ terms) := by
  induction terms generalizing ls with
  | nil => simp
  | cons term terms ih =>
      rw [List.forall_mem_cons] at plain
      have step : Term.and (.all ls) term = .all (ls ++ [term]) := by
        cases term with
        | all items => exact absurd rfl (plain.1 items)
        | _ => rfl
      rw [List.foldl_cons, step, ih _ plain.2, List.append_assoc, List.singleton_append]

namespace Sql.Fragment

variable {d : Dialect} {l r : Fragment} {op : Comparison}

/-- Documents and lists are not compared in SQL. -/
theorem compare?_of_document (document : l.kind = .json ∨ l.kind = .list) :
    l.compare? d op r = none := by
  rcases document with json | list
  · simp [compare?, codec, json, Codec.ofKind]
  · simp [compare?, codec, list, Codec.ofKind]

/-- A comparison is written for the kind of its left side. -/
theorem compare?_of_accepted (accepted : op.accepts l.kind r.kind = true)
    (plain : ¬(l.kind = .json ∨ l.kind = .list)) :
    l.compare? d op r =
      some ((if l.kind = .text then d.compareText else d.compare) l.sql op
        (operandText d l r)) := by
  rcases Comparison.kinds_of_accepts accepted with ⟨same, notNull⟩ | ⟨left, right⟩
  · cases kind : l.kind <;> simp_all [compare?, codec, Codec.ofKind, Codec.kind, Kind.isNumeric]
    -- intervals, which have two codecs
    by_cases family : l.type.family = .interval <;> simp [family]
  · cases kind : l.kind <;> simp_all [compare?, codec, Codec.ofKind, Kind.isNumeric]

end Sql.Fragment

namespace CompileContext

variable {c : CompileContext}

theorem compareFragments_eq {l r : Sql.Fragment} {op : Comparison} {sql : String}
    (accepted : op.accepts l.kind r.kind = true)
    (compared : c.compareFragments l op r = some sql) :
    l.kind ≠ .list ∧ sql =
      (if l.kind = .text then c.dialect.compareText else c.dialect.compare) l.sql op
        (Sql.Fragment.operandText c.dialect l r) := by
  by_cases document : l.kind = .json ∨ l.kind = .list
  · have same : r.kind = l.kind := by
      rcases Comparison.kinds_of_accepts accepted with ⟨same, -⟩ | ⟨left, -⟩
      · exact same
      · rcases document with kind | kind <;> simp [kind, Kind.isNumeric] at left
    rw [compareFragments, Sql.Fragment.compare?_of_document document,
      Sql.Fragment.compare?_of_document (same ▸ document)] at compared
    cases compared
  · rw [compareFragments, Sql.Fragment.compare?_of_accepted accepted document] at compared
    exact ⟨fun list => document (.inr list), (Option.some.inj compared).symm⟩

/-- A literal, and what it is as an operand. -/
theorem operand_of_literal {v : Value} {p : Piece} (compiled : c.literal v = .ok p) :
    (p.fragment.kind = v.kind ∧ p.fragment.constant = some v) ∧
      ((c.operand p).kind = v.kind ∧ (c.operand p).constant = some v) ∧
      (v.kind ≠ .list →
        (∃ type, (Codec.ofKind v.kind type).encode c.dialect type v = .ok (c.operand p).sql) ∨
          ∃ b, v = .bool b ∧ (c.operand p).sql = c.dialect.truthLiteral b) := by
  by_cases bool : v.kind = .bool
  · obtain ⟨b, rfl⟩ : ∃ b, v = .bool b := by
      cases v <;> simp_all [Value.kind]
    obtain ⟨type, rfl⟩ := truth_eq_ok compiled
    exact ⟨⟨rfl, rfl⟩, ⟨rfl, rfl⟩, fun _ => .inr ⟨b, rfl, rfl⟩⟩
  · obtain ⟨sql, type, text, rfl⟩ := literal_eq_ok compiled bool
    have same : c.operand { fragment := .literal sql v type } = .literal sql v type := by
      cases v <;> first | rfl | exact absurd rfl bool
    rw [same]
    refine ⟨⟨rfl, rfl⟩, ⟨rfl, rfl⟩, fun noList => .inl ⟨type, ?_⟩⟩
    cases v <;> first | exact text | exact absurd rfl noList

/-- An equation of something unknown with something that is not NULL. -/
theorem equation_eq_ok {shown : String} {l r p : Piece} (unknown : l.fragment.constant = none)
    (notNull : r.fragment.isNull = false) (compared : c.compare shown l .eq r = .ok p) :
    Comparison.eq.accepts l.fragment.kind r.fragment.kind = true ∧ p.condition = true ∧
      c.compareFragments (c.operand l) .eq (c.operand r) = some p.fragment.sql := by
  have leftNotNull : l.fragment.isNull = false := Sql.Fragment.isNull_of_open unknown
  have leftOpen : l.fragment.isConstant = false := by rw [Sql.Fragment.isConstant, unknown]; rfl
  rw [compare, leftNotNull, notNull, unknown] at compared
  change c.compareOpen l .eq r = .ok p at compared
  rw [compareOpen, leftNotNull, notNull, leftOpen] at compared
  by_cases accepted : Comparison.eq.accepts l.fragment.kind r.fragment.kind = true
  · rw [accepted] at compared
    obtain ⟨sql, found, tested⟩ := Except.bind_eq_ok_iff.1 compared
    obtain ⟨type, rfl⟩ := test_eq_ok tested
    exact ⟨accepted, rfl, Walk.ofOption_eq_ok_iff.1 found⟩
  · rw [Bool.eq_false_iff.2 accepted] at compared
    cases compared

end CompileContext

namespace Table

variable {d : Dialect} {w : Workspace} {t : Table} {row : Row} {arguments : Arguments}

theorem lookup_of_mem (declared : t.Declared d) {c : Column} (member : c ∈ t.columns) :
    t.lookup c.key = .ok c := by
  cases found : t.column? c.key with
  | none => exact absurd (List.mem_map_of_mem member) (not_mem_keys found)
  | some c' =>
      have same := List.inj_on_of_nodup_map declared.keys (mem_of_column? found) member
        (key_of_column? found)
      rw [lookup, found, same]

theorem keyTerm_eq_ok_iff {c : Column} {term : Term} :
    t.keyTerm row c = .ok term ↔ ∃ value, Workspace.givenValue? row c = some value ∧
      term = .compare (.field (.param 0) c.key) .eq (.constant value) := by
  rw [keyTerm]
  cases Workspace.givenValue? row c with
  | none => simp
  | some value => simp [eq_comm]

theorem column_of_mem (declared : t.Declared d) {c : Column} (member : c ∈ t.columns) :
    (w.context [.ofTable t] arguments).column 0 c.key =
      .ok { fragment := { sql := c.quotedName, kind := c.kind, type := c.type,
                          name := some c.key } } := by
  have lookup : (Binding.ofTable t).table.lookup c.key = .ok c := lookup_of_mem declared member
  change (do
    let column ← Walk.ofOutcome ((Binding.ofTable t).table.lookup c.key)
    _ : Walk Piece) = _
  rw [lookup]
  rfl

/-- The text next to a column is a literal of the value. -/
theorem literal_of_operandText {c : Column} {l r : Sql.Fragment} {value : Value}
    (kind : l.kind = c.kind) (type : l.type = c.type) (known : r.constant = some value)
    (own : (∃ type, (Codec.ofKind value.kind type).encode d type value = .ok r.sql) ∨
      ∃ b, value = .bool b ∧ r.sql = d.truthLiteral b) :
    c.Literal d value (Sql.Fragment.operandText d l r) := by
  have codec : l.encode d value = c.encode d value := by
    rw [Sql.Fragment.encode, Sql.Fragment.codec, kind, type]
    rfl
  rw [Sql.Fragment.operandText, known]
  dsimp only
  split
  · rename_i same
    rw [codec]
    split
    · rename_i encoded
      simp only [Bool.and_eq_true, decide_eq_true_eq] at same
      exact .inl ⟨same.2.trans kind, encoded⟩
    · exact .inr own
  · exact .inr own

/-- The condition on one key column. -/
theorem equation_of_keyTerm (dialect : w.dialect = d) (declared : t.Declared d) {c : Column}
    (member : c ∈ t.columns) {term : Term} (made : t.keyTerm row c = .ok term) {p : Piece}
    {params : List String}
    (compiled : term.compile (w.context [.ofTable t] arguments) params >>=
      (w.context [.ofTable t] arguments).asCondition = .ok p) :
    c.Equation d row p.fragment.sql := by
  obtain ⟨value, given, rfl⟩ := keyTerm_eq_ok_iff.1 made
  obtain ⟨q, compared, condition⟩ := Except.bind_eq_ok_iff.1 compiled
  obtain ⟨left, right, ⟨leftEq, -⟩, ⟨rightEq, -⟩, compared⟩ := Term.compile_pair_eq_ok compared
  obtain rfl := Except.ok.inj ((column_of_mem declared member).symm.trans leftEq)
  obtain ⟨⟨kind, known⟩, ⟨operandKind, operandKnown⟩, own⟩ :=
    CompileContext.operand_of_literal rightEq
  have notNull : right.fragment.isNull = false := by
    rw [Sql.Fragment.isNull_of_constant known]
    simpa using (Option.filter_eq_some_iff.1 given).2
  obtain ⟨accepted, isCondition, found⟩ :=
    CompileContext.equation_eq_ok rfl notNull compared
  rw [CompileContext.asCondition, if_pos isCondition] at condition
  obtain rfl := Except.ok.inj condition
  rw [kind, ← operandKind] at accepted
  obtain ⟨noList, written⟩ := CompileContext.compareFragments_eq accepted found
  have plain : value.kind ≠ .list := by
    intro list
    rcases Comparison.kinds_of_accepts accepted with ⟨same, -⟩ | ⟨-, numeric⟩
    · exact noList (same.symm.trans (operandKind.trans list))
    · rw [operandKind, list] at numeric
      cases numeric
  subst dialect
  exact ⟨value, _, given, literal_of_operandText rfl rfl operandKnown (own plain), written⟩

/-- The restriction by the key of a row: a condition on each key column. -/
theorem keyRestriction_eq_ok {key : Lambda} (made : t.keyRestriction row = .ok key) :
    ∃ terms, List.Forall₂ (fun c term => t.keyTerm row c = .ok term) t.keyColumns terms ∧
      ((∃ term, terms = [term] ∧ key.body = term) ∨ key.body = .all terms ∧ 2 ≤ terms.length) := by
  obtain ⟨terms, each, rest⟩ := Except.bind_eq_ok_iff.1 made
  have each := Except.mapM_eq_ok_iff.1 each
  have plain : ∀ term ∈ terms, ∀ items, term ≠ .all items := by
    intro term member items
    obtain ⟨c, -, made⟩ := each.flip.exists_of_mem member
    obtain ⟨value, -, rfl⟩ := keyTerm_eq_ok_iff.1 made
    nofun
  refine ⟨terms, each, ?_⟩
  match terms with
  | [] => cases rest
  | [term] => exact .inl ⟨term, rfl, Lambda.body_of_make rest⟩
  | first :: second :: terms =>
      refine .inr ⟨(Lambda.body_of_make rest).trans ?_, by simp⟩
      rw [List.forall_mem_cons, List.forall_mem_cons] at plain
      have both : Term.and first second = .all [first, second] := by
        cases first with
        | all items => exact absurd rfl (plain.1 items)
        | _ => rfl
      rw [List.foldl_cons, both, Term.foldl_and_all _ plain.2.2]
      rfl

/-- Conditions on the key columns that have exact SQL forms. -/
theorem equations_of_keyTerms (dialect : w.dialect = d) (declared : t.Declared d)
    {columns : List Column} (members : ∀ c ∈ columns, c ∈ t.columns) {terms : List Term}
    {pieces : List Piece} {params : List String}
    (made : List.Forall₂ (fun c term => t.keyTerm row c = .ok term) columns terms)
    (compiled : List.Forall₂ (fun term p =>
      term.compile (w.context [.ofTable t] arguments) params >>=
        (w.context [.ofTable t] arguments).asCondition = .ok p ∧ p.exact = true) terms pieces) :
    List.Forall₂ (Column.Equation d row) columns (pieces.map fun p => p.fragment.sql) := by
  induction made generalizing pieces with
  | nil =>
      cases compiled
      exact .nil
  | cons head tail ih =>
      rw [List.forall_mem_cons] at members
      cases compiled with
      | cons first rest =>
          exact .cons (equation_of_keyTerm dialect declared members.1 head first.1)
            (ih members.2 rest)

/-- The exact restriction by the key of a row equates each key column with the value of the
row. -/
theorem equations_of_keyRestriction (dialect : w.dialect = d) (declared : t.Declared d)
    {key : Lambda} (made : t.keyRestriction row = .ok key) {found : Restriction}
    (compiled : w.compileRestriction [.ofTable t] key arguments = .ok found)
    (exactness : found.exact = true) :
    ∃ equations, List.Forall₂ (Column.Equation d row) t.keyColumns equations ∧
      found.sql = Shape.joined " AND " equations := by
  obtain ⟨terms, each, body⟩ := keyRestriction_eq_ok made
  have members : ∀ c ∈ t.keyColumns, c ∈ t.columns := fun c member => (List.mem_filter.1 member).1
  obtain ⟨rendering, restricted, ended⟩ := Except.bind_eq_ok_iff.1 compiled
  split at ended
  · cases ended
  obtain rfl := Except.ok.inj ended
  obtain ⟨-, -, walked⟩ := Except.bind_eq_ok_iff.1 restricted
  split at walked
  · rename_i piece condition
    obtain rfl := Except.ok.inj walked
    rcases body with ⟨term, rfl, same⟩ | ⟨all, several⟩
    · rw [same] at condition
      have equations := equations_of_keyTerms dialect declared members each
        (.cons ⟨condition, exactness⟩ .nil)
      exact ⟨_, equations, rfl⟩
    · rw [all, Term.compile, bind_assoc] at condition
      obtain ⟨parts, partsEq, rest⟩ := Except.bind_eq_ok_iff.1 condition
      obtain ⟨joint, joined, same⟩ := Except.bind_eq_ok_iff.1 rest
      obtain ⟨first, others, rfl⟩ := List.exists_cons_of_length_pos (by omega : 0 < terms.length)
      obtain ⟨part, later, rfl, -, -⟩ := Term.compileParts_cons_eq_ok partsEq
      obtain ⟨type, tested⟩ := CompileContext.test_eq_ok joined
      rw [CompileContext.asCondition, if_pos (by rw [tested])] at same
      obtain rfl := Except.ok.inj same
      have present : (part :: later).all (fun part => part.any Piece.exact) = true := by
        rw [← exactness, tested]
      obtain ⟨pieces, partsSome, conditions⟩ := Term.compileParts_of_present partsEq present
      refine ⟨_, equations_of_keyTerms dialect declared members each conditions, ?_⟩
      cases pieces with
      | nil => cases partsSome
      | cons p ps =>
          rw [partsSome, CompileContext.junction_some] at joined
          obtain ⟨type, rfl⟩ := CompileContext.test_eq_ok joined
          rfl
  · cases walked
  · split at walked
    · obtain rfl := Except.ok.inj walked
      cases exactness
    · cases walked

theorem blank_mem_equation (d : BuiltinDialect) {c : Column} {sql : String}
    (equation : c.Equation d.dialect row sql) : ' ' ∈ sql.toList := by
  have blank (l r : String) : ' ' ∈ (spaced [l, "=", r]).toList := by
    simp [spaced, Text.join]
  obtain ⟨value, text, -, -, rfl⟩ := equation
  split
  · cases d <;> exact blank _ _
  · cases d <;> exact blank _ _

/-- The equations of key columns are no condition that always holds. -/
theorem joined_ne_truthClause (d : BuiltinDialect) {columns : List Column}
    {equations : List String}
    (each : List.Forall₂ (Column.Equation d.dialect row) columns equations) :
    Shape.joined " AND " equations ≠ d.dialect.truthClause true := by
  -- the sentinels have neither a bracket in front nor a blank
  have bracketless : (d.dialect.truthClause true).toList.head? ≠ some '(' := by
    cases d <;> decide
  have blankless : ' ' ∉ (d.dialect.truthClause true).toList := by
    cases d <;> decide
  match equations with
  | [] | _ :: _ :: _ =>
      intro same
      rw [← same] at bracketless
      exact bracketless (by simp [Shape.joined, Text.bracketed])
  | [equation] =>
      intro same
      obtain ⟨c, _, equates, -⟩ := List.forall₂_cons_right_iff.1 each
      have blank := blank_mem_equation d equates
      exact blankless (same ▸ blank)

end Table

end RowQuery
