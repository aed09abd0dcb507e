import RowQuery.Proofs.Folding.Piece
import RowQuery.Proofs.Integral.Term
import RowQuery.Proofs.Spelling.Function

/-!
# What compiled pieces spell

The SQL of a compiled piece is an expression, unless the piece is a list.  Every step of the
compiler keeps this of the pieces that it puts together.  Lists are operands of two steps only: they
can be counted, and looked for among other lists.
-/

namespace RowQuery

open RowQuery.Sql BuiltinDialect

/-- A piece is an expression, unless it is a list and no operand may be missing. -/
structure Piece.Spells (d : BuiltinDialect) (hollow openers : Prop) (p : Piece) : Prop where
  fragment : p.fragment.Spells d hollow openers
  condition : p.condition = true → p.fragment.kind = .bool

/-- What is compiled is written by a built-in dialect, with the standard functions and with columns
that are quoted in the way of the dialect. -/
structure CompileContext.BuiltIn (c : CompileContext) (d : BuiltinDialect) : Prop where
  dialect : c.dialect = d.dialect
  functions : c.functions.IsStandard
  columns : c.QuotesColumns

variable {d : BuiltinDialect} {hollow openers : Prop}

theorem Piece.Spells.of_condition {p : Piece} (spells : p.Spells d hollow openers)
    (condition : p.condition = true) : d.Spells hollow openers p.fragment.sql :=
  spells.fragment.of_kind (by simp [spells.condition condition])

/-- There is no arithmetic on lists. -/
theorem Arithmetic.not_list_of_resultKind {l r kind : Kind} {op : Arithmetic}
    (listed : op.resultKind l r = some kind) : l ≠ .list ∧ r ≠ .list := by
  constructor
  · rintro rfl
    cases op <;> cases r <;> cases listed
  · rintro rfl
    cases op <;> cases l <;> cases listed

/-- Lists are compared with lists only. -/
theorem Comparison.list_of_accepts {l r : Kind} {op : Comparison}
    (accepted : op.accepts l r = true) : r = .list → l = .list := by
  rintro rfl
  cases l <;> first | rfl | cases accepted

namespace Sql.Fragment

variable {l r : Fragment} {sql : String}

theorem spells_operandText (right : d.Spells hollow openers r.sql) :
    d.Spells hollow openers (operandText d.dialect l r) := by
  unfold operandText
  split
  · split
    · split
      · rename_i encoded
        exact spells_encode encoded
      · exact right
    · exact right
  · exact right

/-- There is no comparison of lists in SQL. -/
theorem not_list_of_compare? {dialect : Dialect} {op : Comparison}
    (written : l.compare? dialect op r = some sql) : l.kind ≠ .list ∧ r.kind ≠ .list := by
  unfold compare? at written
  constructor
  · intro listed
    have codec : l.codec = .onlyNullList := by rw [Fragment.codec, listed, Codec.ofKind]
    rw [codec] at written
    cases written
  · intro listed
    rw [listed] at written
    cases codec : l.codec <;> rw [codec] at written <;> cases written

theorem spells_compare? {op : Comparison} (left : l.Spells d hollow openers)
    (right : r.Spells d hollow openers) (written : l.compare? d.dialect op r = some sql) :
    d.Spells hollow openers sql := by
  obtain ⟨noList, noList'⟩ := not_list_of_compare? written
  have left := left.of_kind noList
  have text := spells_operandText (l := l) (right.of_kind noList')
  have plain {accepted : Prop} [Decidable accepted] (written : (if accepted then
      some (d.dialect.compare l.sql op (operandText d.dialect l r)) else none) = some sql) :
      d.Spells hollow openers sql := by
    split at written
    · exact Option.some.inj written ▸ spells_compare left op text
    · cases written
  unfold compare? at written
  dsimp only at written
  split at written
  · cases written
  · cases written
  · cases written
  · exact plain written
  · exact plain written
  · exact plain written
  · split at written
    · exact Option.some.inj written ▸ spells_compareText left op text
    · cases written
  · exact plain written

/-- A negative interval is subtracted from a date on SQLite. -/
def Signed (d : BuiltinDialect) (l : Fragment) (op : Arithmetic) (r : Fragment) : Prop :=
  d = sqlite ∧ l.kind = .date ∧ op = .sub ∧ r.kind = .interval ∧ r.sql.toList.head? = some '-'

variable {op : Arithmetic}

theorem Signed.exists_negative (signed : Signed d l op r) (spells : r.Spells d hollow openers) :
    ∃ i, r.constant = some (.interval i) ∧ i.seconds.negative = true := by
  obtain ⟨database, -, -, kind, minus⟩ := signed
  cases known : r.constant with
  | none => exact absurd minus (spells.noMinus known (by simp [kind]))
  | some v =>
      have interval := (spells.kind v known).symm.trans kind
      cases v with
      | interval i => exact ⟨i, rfl, (spells.negative database i known).1 minus⟩
      | _ => cases interval

theorem spells_datesOf (signed : Signed d l op r → openers) (left : d.Spells hollow openers l.sql)
    (right : d.Spells hollow openers r.sql)
    (written : d.dialect.dateArithmetic l.operand op r.operand = some sql) :
    d.SpellsUnsigned hollow openers sql :=
  spells_dateArithmetic written left right fun database date sub interval minus =>
    signed ⟨database, date, sub, interval, minus⟩

theorem spells_numericArithmetic? (signed : Signed d l op r → openers)
    (left : d.Spells hollow openers l.sql) (right : d.Spells hollow openers r.sql)
    (written : numericArithmetic? d.dialect l op r = some sql) :
    d.SpellsUnsigned hollow openers sql := by
  have text := spells_operandText (l := l) right
  unfold numericArithmetic? at written
  dsimp only at written
  split at written
  · split at written
    · exact spells_datesOf signed left right written
    · obtain rfl := Option.some.inj written
      exact spells_arithmetic left op right
  · split at written
    · cases written
    · repeat' split at written
      all_goals cases written
      · exact spells_trueDivide left text
      · exact spells_arithmetic left .div text
      · exact spells_floorModulo left text
      · exact spells_arithmetic left op text

theorem spells_secondsArithmetic? (signed : Signed d l op r → openers)
    (left : d.Spells hollow openers l.sql) (right : d.Spells hollow openers r.sql)
    (written : secondsArithmetic? d.dialect l op r = some sql) :
    d.SpellsUnsigned hollow openers sql := by
  have text := spells_operandText (l := l) right
  have plain {op : Arithmetic} {text : String} (inside : d.Spells hollow openers text)
      (written : some (d.dialect.arithmetic l.sql op text) = some sql) :
      d.SpellsUnsigned hollow openers sql :=
    Option.some.inj written ▸ spells_arithmetic left op inside
  unfold secondsArithmetic? at written
  split at written
  · exact plain text written
  · exact plain text written
  · exact plain text written
  · exact plain right written
  · exact plain right written
  · exact plain right written
  · exact plain right written
  · exact spells_datesOf signed left right written
  · exact spells_datesOf signed left right written
  · cases written

theorem spells_arithmetic? (signed : Signed d l op r → openers)
    (left : d.Spells hollow openers l.sql) (right : d.Spells hollow openers r.sql)
    (written : l.arithmetic? d.dialect op r = some sql) : d.SpellsUnsigned hollow openers sql := by
  have text := spells_operandText (l := l) right
  unfold arithmetic? at written
  split at written
  · exact spells_numericArithmetic? signed left right written
  · exact spells_numericArithmetic? signed left right written
  · exact spells_numericArithmetic? signed left right written
  · split at written
    · obtain rfl := Option.some.inj written
      exact spells_concat left text
    · cases written
  · split at written
    · obtain rfl := Option.some.inj written
      exact spells_concat left text
    · cases written
  · exact spells_datesOf signed left right written
  · exact spells_datesOf signed left right written
  · exact spells_datesOf signed left right written
  · exact spells_secondsArithmetic? signed left right written
  · cases written

end Sql.Fragment

namespace CompileContext

open Sql.Fragment

variable {c : CompileContext} {p q l r : Piece} {sql : String}

variable (builtIn : c.BuiltIn d)

include builtIn

/-! ## Literals and columns -/

theorem spells_truth {value : Bool} (compiled : c.truth value = .ok p) :
    p.Spells d hollow openers := by
  obtain ⟨type, rfl⟩ := truth_eq_ok compiled
  refine ⟨⟨fun v known => ?_, nofun, fun _ => ?_, nofun, fun _ i known => ?_⟩, fun _ => rfl⟩
  · obtain rfl := Option.some.inj known
    rfl
  · rw [builtIn.dialect]
    exact spells_truthClause value
  · cases known

omit builtIn in
theorem spells_test {aggregate exact_ : Bool} (spells : d.Spells hollow openers sql)
    (compiled : c.test sql aggregate exact_ = .ok p) : p.Spells d hollow openers := by
  obtain ⟨type, rfl⟩ := test_eq_ok compiled
  exact ⟨.computed rfl spells fun other => absurd rfl other, fun _ => rfl⟩

theorem spells_literal {v : Value} (compiled : c.literal v = .ok p) :
    p.Spells d hollow openers := by
  by_cases isBool : v.kind = .bool
  · cases v with
    | bool b => exact spells_truth builtIn compiled
    | _ => cases isBool
  · obtain ⟨sql, type, written, rfl⟩ := literal_eq_ok compiled isBool
    refine ⟨⟨fun w known => ?_, fun listed => ?_, fun may => ?_, nofun,
      fun database i known => ?_⟩, nofun⟩
    · obtain rfl := Option.some.inj known
      rfl
    · obtain ⟨items, known⟩ := isList_eq_true_iff.1 listed
      obtain rfl : v = .list items := Option.some.inj known
      exact (Except.ok.inj written).symm
    · unfold literalText at written
      rw [builtIn.dialect] at written
      split at written
      · -- A list has no text.
        obtain rfl := Except.ok.inj written
        exact ⟨[], .closed rfl rfl, .missing (may rfl)⟩
      · exact spells_encode written
    · obtain rfl : v = .interval i := Option.some.inj known
      have encoded : (Codec.ofKind .interval type).encode c.dialect type (.interval i) = .ok sql :=
        written
      rw [builtIn.dialect, database] at encoded
      exact minus_iff_negative encoded

theorem spells_folded {result : Outcome Value} (compiled : c.folded result = .ok p) :
    p.Spells d hollow openers := by
  obtain ⟨v, -, written⟩ := folded_eq_ok compiled
  exact spells_literal builtIn written

omit builtIn in
/-- A column under its name, qualified or not. -/
theorem spells_columnText (label name : String) (qualified : Prop) [Decidable qualified] :
    d.SpellsUnsigned hollow openers (if qualified then
      d.dialect.quoteName label ++ "." ++ d.dialect.quoteName name
      else d.dialect.quoteName name) := by
  have head (name : String) :
      (d.dialect.quoteName name).toList.head? = some d.nameQuotation.mark := by
    rw [d.quoteName_encloses name, List.head?_cons]
  have other : d.nameQuotation.mark ≠ '-' := by cases d <;> decide
  split
  · refine ⟨⟨_, .qualified label name, .name _⟩, ?_⟩
    rw [String.append_assoc]
    exact .append (head label) other
  · exact ⟨⟨_, .quoteName name, .name _⟩, .of_head (head name) other⟩

theorem spells_column {index : Nat} {key : String} (compiled : c.column index key = .ok p) :
    p.Spells d hollow openers := by
  obtain ⟨b, column, bound, found, rfl⟩ := exists_of_column compiled
  have text : d.SpellsUnsigned hollow openers (if c.bindings.length > 1 then
      c.dialect.quoteName b.label ++ "." ++ column.quotedName else column.quotedName) := by
    rw [builtIn.columns b (List.mem_of_getElem? bound) column (Table.mem_of_lookup found),
      builtIn.dialect]
    exact spells_columnText b.label column.name _
  exact ⟨.computed rfl text.1 fun _ => text.2, nofun⟩

/-! ## Conditions and operands -/

theorem spells_asCondition (spells : p.Spells d hollow openers)
    (compiled : c.asCondition p = .ok q) :
    q.Spells d hollow openers ∧ q.condition = true := by
  rcases asCondition_eq_ok compiled with ⟨condition, rfl⟩ | ⟨u, -, ended⟩ |
    ⟨truth, isBool, encoded, tested⟩
  · exact ⟨spells, condition⟩
  · exact ⟨spells_truth builtIn ended, (Tests.truth ended).condition⟩
  · refine ⟨?_, (Tests.test tested).condition⟩
    unfold Fragment.encode at encoded
    rw [builtIn.dialect] at encoded tested
    have operand := spells.fragment.of_kind (by simp [isBool])
    exact spells_test (spells_compare operand .eq (spells_encode encoded)) tested

theorem spells_operand (spells : p.Spells d hollow openers) :
    (c.operand p).Spells d hollow openers := by
  have kind := spells.fragment.kind
  unfold operand
  split
  · rename_i b known
    refine ⟨kind, fun listed => ?_, fun _ => ?_, fun open_ => ?_, fun _ i known' => ?_⟩
    · obtain ⟨items, known'⟩ := isList_eq_true_iff.1 listed
      cases known.symm.trans known'
    · rw [builtIn.dialect]
      exact spells_truthLiteral b
    · cases known.symm.trans open_
    · cases known.symm.trans known'
  · split
    · rename_i condition
      have grouped := (spells.of_condition condition).grouped
      have isBool := spells.condition condition
      refine ⟨kind, fun listed => ?_, fun _ => grouped.1, fun _ _ => grouped.2,
        fun _ i known => ?_⟩
      · cases isBool.symm.trans (spells.fragment.kind_of_isList listed)
      · cases isBool.symm.trans (kind _ known)
    · exact spells.fragment

/-! ## Comparisons and arithmetic -/

omit builtIn in
theorem spells_nullTest (spells : d.Spells hollow openers sql) (negated : Bool) :
    d.Spells hollow openers (nullTest sql negated) := by
  obtain ⟨lexemes, scans, phrase⟩ := spells
  unfold nullTest
  cases negated with
  | true =>
      have closed : d.ScansTo openers " IS NOT NULL" [.word "IS", .word "NOT", .word "NULL"] := by
        cases d <;> exact .closed rfl rfl
      exact ⟨_, .operand scans rfl closed, .isNotNull phrase⟩
  | false =>
      have closed : d.ScansTo openers " IS NULL" [.word "IS", .word "NULL"] := by
        cases d <;> exact .closed rfl rfl
      exact ⟨_, .operand scans rfl closed, .isNull phrase⟩

theorem spells_compareFragments {f g : Fragment} {op : Comparison}
    (left : f.Spells d hollow openers) (right : g.Spells d hollow openers)
    (written : c.compareFragments f op g = some sql) : d.Spells hollow openers sql := by
  unfold compareFragments at written
  rw [builtIn.dialect] at written
  rcases (Option.orElse_eq_some _ _ _).1 written with first | ⟨-, second⟩
  · exact spells_compare? left right first
  · exact spells_compare? right left second

/-- Of two pieces that are not both constants one is NULL; then the other one is no list. -/
theorem spells_compareOpen {op : Comparison} (left : l.Spells d hollow openers)
    (right : r.Spells d hollow openers)
    (open_ : l.fragment.constant = none ∨ r.fragment.constant = none)
    (compiled : c.compareOpen l op r = .ok p) : p.Spells d hollow openers := by
  have left := spells_operand builtIn left
  have right := spells_operand builtIn right
  obtain ⟨sql, tested, written⟩ := compareOpen_eq_ok compiled
  refine spells_test ?_ tested
  rcases written with ⟨isNull, rfl⟩ | ⟨isNull, rfl⟩ | written | written
  · refine spells_nullTest (right.of_open ?_) _
    rw [operand_constant]
    exact open_.resolve_left fun none_ => by simp [isNull_of_open none_] at isNull
  · refine spells_nullTest (left.of_open ?_) _
    rw [operand_constant]
    exact open_.resolve_right fun none_ => by simp [isNull_of_open none_] at isNull
  · exact spells_compareFragments builtIn right left written
  · exact spells_compareFragments builtIn left right written

theorem spells_compare {shown : String} {op : Comparison} (left : l.Spells d hollow openers)
    (right : r.Spells d hollow openers) (compiled : c.compare shown l op r = .ok p) :
    p.Spells d hollow openers := by
  rcases compare_eq_ok compiled with ⟨u, w, answer, -, -, -, ended⟩ | ⟨open_, compared⟩
  · exact spells_truth builtIn ended
  · exact spells_compareOpen builtIn left right open_ compared

theorem spells_arithmetic {op : Arithmetic} (left : l.Spells d hollow openers)
    (right : r.Spells d hollow openers)
    (signed : (l.fragment.constant = none ∨ r.fragment.constant = none) →
      Signed d (c.operand l) op (c.operand r) → openers)
    (compiled : c.arithmetic l op r = .ok p) : p.Spells d hollow openers := by
  rcases arithmetic_eq_ok compiled with ⟨k, k', u, -, -, -, literal⟩ |
    ⟨open_, kind, sql, type, listed, written, rfl⟩
  · exact spells_literal builtIn literal
  · rw [builtIn.dialect] at written
    obtain ⟨noList, noList'⟩ := Arithmetic.not_list_of_resultKind listed
    have spells := spells_arithmetic? (signed open_)
      ((spells_operand builtIn left).of_kind (by rwa [operand_kind]))
      ((spells_operand builtIn right).of_kind (by rwa [operand_kind])) written
    exact ⟨.computed rfl spells.1 fun _ => spells.2, nofun⟩

theorem spells_negation (spells : l.Spells d hollow openers) (condition : l.condition = true)
    (compiled : c.negation l = .ok p) : p.Spells d hollow openers := by
  unfold negation at compiled
  split at compiled
  · exact spells_truth builtIn compiled
  · exact spells_test (BuiltinDialect.spells_negation (spells.of_condition condition)) compiled

theorem spells_negative (spells : l.Spells d hollow openers) (compiled : c.negative l = .ok p) :
    p.Spells d hollow openers := by
  rcases negative_eq_ok compiled with ⟨k, u, -, -, literal⟩ | ⟨open_, signs, rfl⟩
  · exact spells_literal builtIn literal
  · have other : l.fragment.kind ≠ .bool := by
      intro isBool
      simp [isBool, Kind.isNumeric] at signs
    have spells := BuiltinDialect.spells_negative
      ⟨spells.fragment.of_open open_, spells.fragment.noMinus open_ other⟩
    exact ⟨.computed rfl spells.1 fun _ => spells.2, nofun⟩

/-! ## Membership -/

/-- The members next to an item.  Only next to a list one of them can be a list. -/
theorem spells_memberFragments {item : Fragment} {members : List Piece} {fragments : List Fragment}
    (each : ∀ p ∈ members, p.Spells d hollow openers)
    (compiled : c.memberFragments item members = .ok fragments) :
    ∀ f ∈ fragments, f.Spells d hollow openers ∧ (f.kind = .list → item.kind = .list) := by
  induction members generalizing fragments with
  | nil =>
      obtain rfl := Except.ok.inj compiled
      simp
  | cons member members ih =>
      rw [List.forall_mem_cons] at each
      rw [memberFragments] at compiled
      split at compiled
      · exact ih each.2 compiled
      · split at compiled
        · cases compiled
        · rename_i accepted
          obtain ⟨rest, later, ended⟩ := Except.bind_eq_ok_iff.1 compiled
          obtain rfl := Except.ok.inj ended
          refine List.forall_mem_cons.2 ⟨⟨spells_operand builtIn each.1, ?_⟩, ih each.2 later⟩
          rw [operand_kind]
          exact Comparison.list_of_accepts (by simpa using accepted)

omit builtIn in
theorem fixed?_junction (conjunction : Bool) :
    d.fixed? (if conjunction then " AND " else " OR ") =
      some [.word (if conjunction then "AND" else "OR")] := by
  cases d <;> cases conjunction <;> rfl

omit builtIn in
/-- An item that is looked for among members. -/
theorem spells_among {item : String} {members : List String}
    (spells : d.Spells hollow openers item) (present : members ≠ [])
    (each : ∀ sql ∈ members, d.Spells hollow openers sql) (negated : Bool) :
    d.Spells hollow openers (item ++ (if negated then " NOT IN " else " IN ") ++
      Text.bracketed (Text.join ", " members)) := by
  obtain ⟨first, scans, phrase⟩ := spells
  obtain ⟨lexemes, scans', phrase'⟩ := Spells.operands present each
  have closing : d.ScansTo openers ")" [.symbol ')'] := by cases d <;> exact .closed rfl rfl
  have bracket : d.fixed? "(" = some [.symbol '('] := by cases d <;> rfl
  have listed : d.ScansTo openers (Text.bracketed (Text.join ", " members))
      (.symbol '(' :: (lexemes ++ [.symbol ')'])) := by
    rw [Text.bracketed, String.append_assoc]
    exact .opening bracket (.operand scans' rfl closing)
  rw [String.append_assoc]
  cases negated with
  | true =>
      have known : d.fixed? " NOT IN " = some [.word "NOT", .word "IN"] := by cases d <;> rfl
      exact ⟨_, .operand scans (.append (.of_head rfl rfl) _) (.opening known listed),
        .notAmong phrase phrase'⟩
  | false =>
      have known : d.fixed? " IN " = some [.word "IN"] := by cases d <;> rfl
      exact ⟨_, .operand scans (.append (.of_head rfl rfl) _) (.opening known listed),
        .among phrase phrase'⟩

omit builtIn in
theorem spells_memberText {item : Fragment} {members : List String}
    (spells : d.Spells hollow openers item.sql)
    (each : ∀ sql ∈ members, d.Spells hollow openers sql) (hasNull negated : Bool) :
    d.Spells hollow openers (memberText item members hasNull negated) := by
  have test := spells_nullTest spells negated
  unfold memberText
  dsimp only
  split
  · exact test
  · rename_i several
    have among := spells_among spells (fun none_ => several (List.isEmpty_iff.2 none_)) each negated
    split
    · refine Spells.bracketed ?_
      rw [String.append_assoc]
      cases negated with
      | true => exact among.beside test (.of_head rfl rfl) (fixed?_junction true) (by decide)
      | false => exact among.beside test (.of_head rfl rfl) (fixed?_junction false) (by decide)
    · exact among

/-- A list that is looked for in what is computed has no text. -/
theorem spells_member {item : Piece} {members : List Piece} {negated : Bool}
    (spells : item.Spells d hollow openers) (each : ∀ p ∈ members, p.Spells d hollow openers)
    (sought : item.fragment.kind = .list → p.fragment.constant = none → hollow)
    (compiled : c.member item members negated = .ok p) : p.Spells d hollow openers := by
  rcases member_eq_ok compiled with ⟨-, ended⟩ | ⟨rights, written, tested⟩
  · exact spells_truth builtIn ended
  · have inside := spells_memberFragments builtIn each written
    rw [operand_kind] at inside
    have left := spells_operand builtIn spells
    have may : item.fragment.kind = .list → hollow := fun listed =>
      sought listed (constant_of_test tested)
    refine spells_test (spells_memberText ?_ ?_ _ negated) tested
    · refine left.spells fun listed => may ?_
      rw [← operand_kind (c := c)]
      exact left.kind_of_isList listed
    · intro sql member
      obtain ⟨right, among, rfl⟩ := List.mem_map.1 member
      obtain ⟨spells, like⟩ := inside right among
      rw [builtIn.dialect]
      exact spells_operandText
        (spells.spells fun listed => may (like (spells.kind_of_isList listed)))

theorem spells_substring {text piece : Piece} {negated : Bool}
    (left : text.Spells d hollow openers) (right : piece.Spells d hollow openers)
    (compiled : c.substring text piece negated = .ok p) : p.Spells d hollow openers := by
  obtain ⟨test, rendered, sql, exact_, written, tested⟩ := substring_eq_ok compiled
  rw [builtIn.dialect] at rendered
  have spells := (Function.spells_affix (spells_operand builtIn left) (spells_operand builtIn right)
    rendered).1
  refine spells_test ?_ tested
  rcases written with rfl | rfl
  · exact spells
  · exact BuiltinDialect.spells_negation spells

theorem spells_contains {item collection : Piece} {negated : Bool}
    (spells : item.Spells d hollow openers) (spells' : collection.Spells d hollow openers)
    (sought : item.fragment.kind = .list → p.fragment.constant = none → hollow)
    (compiled : c.contains item collection negated = .ok p) : p.Spells d hollow openers := by
  rcases contains_eq_ok compiled with ⟨u, w, found, -, -, -, ended⟩ |
    ⟨values, members, -, written, ended⟩ | within
  · exact spells_truth builtIn ended
  · have each : ∀ member ∈ members, member.Spells d hollow openers := by
      intro member among
      obtain ⟨v, -, literal⟩ := written.flip.exists_of_mem among
      exact spells_literal builtIn literal
    exact spells_member builtIn spells each sought ended
  · exact spells_substring builtIn spells' spells within

/-! ## Names, fields, calls and junctions -/

omit builtIn in
theorem spells_named (spells : p.Spells d hollow openers) (name : String) :
    ({ p with fragment := p.fragment.named name } : Piece).Spells d hollow openers :=
  ⟨⟨spells.fragment.kind, spells.fragment.blank, spells.fragment.spells, spells.fragment.noMinus,
    spells.fragment.negative⟩, spells.condition⟩

theorem spells_field {name : String} (spells : l.Spells d hollow openers)
    (compiled : c.field l name = .ok p) : p.Spells d hollow openers := by
  rcases field_eq_ok compiled with ⟨k, u, -, -, literal⟩ | ⟨part, rendering, rendered, rfl⟩
  · exact spells_literal builtIn literal
  · rw [builtIn.dialect] at rendered
    have open_ := (Function.writes_extract? rendered).2.unknown
    have text := Function.spells_extract? spells.fragment rendered
    exact ⟨.computed open_ text.1 fun _ => text.2, nofun⟩

/-- A list that is counted has no text. -/
theorem spells_call {f : Function} {name : String} {pieces : List Piece}
    (keeps : f.KeepsSpelling) (sound : f.Sound) (each : ∀ p ∈ pieces, p.Spells d hollow openers)
    (counted : f = Function.count → ∀ p ∈ pieces, isList p.fragment = true → hollow)
    (compiled : c.call name f pieces = .ok p) : p.Spells d hollow openers := by
  rcases call_eq_ok compiled with ⟨ks, u, -, -, -, literal⟩ | written
  · exact spells_literal builtIn literal
  · obtain ⟨rendering, rendered, rfl⟩ := rendered_eq_ok written
    have open_ := sound.unknown _ _ _ rendered
    rw [builtIn.dialect] at rendered
    obtain ⟨spells, noMinus⟩ := keeps d hollow openers _ rendering
      (fun operand member => by
        obtain ⟨piece, among, rfl⟩ := List.mem_map.1 member
        exact spells_operand builtIn (each piece among))
      (fun same operand member listed => by
        obtain ⟨piece, among, rfl⟩ := List.mem_map.1 member
        refine counted same piece among ?_
        rwa [isList, operand_constant] at listed) rendered
    exact ⟨.computed open_ spells noMinus, fun condition => of_decide_eq_true condition⟩

theorem spells_junction {parts : List (Option Piece)} {conjunction : Bool}
    (each : ∀ p, some p ∈ parts → p.Spells d hollow openers ∧ p.condition = true)
    (compiled : c.junction parts conjunction = .ok p) : p.Spells d hollow openers := by
  unfold junction at compiled
  split at compiled
  · exact spells_truth builtIn compiled
  · rename_i several
    refine spells_test ?_ compiled
    have texts : ∀ text ∈ parts.map c.partText, d.Spells hollow openers text := by
      intro text member
      obtain ⟨part, among, rfl⟩ := List.mem_map.1 member
      cases part with
      | none =>
          rw [partText, builtIn.dialect]
          exact spells_truthClause true
      | some q =>
          obtain ⟨spells, condition⟩ := each q among
          exact spells.of_condition condition
    split
    · rename_i text single
      exact texts text (by rw [single]; simp)
    · have present : parts.map c.partText ≠ [] := fun none_ =>
        several (List.map_eq_nil_iff.1 none_)
      refine Spells.bracketed ?_
      cases conjunction with
      | true =>
          exact Spells.join (.of_head rfl rfl) (fixed?_junction true) (by decide) present texts
      | false =>
          exact Spells.join (.of_head rfl rfl) (fixed?_junction false) (by decide) present texts

end CompileContext

end RowQuery
