import RowQuery.Proofs.Integral.Term
import RowQuery.Proofs.Integral.Translation
import RowQuery.Proofs.Memo.Arguments
import RowQuery.Proofs.Sql.Collation

/-!
# Texts among listed texts on MySQL

A test whether a column is among listed texts, next to the disjunction of its comparisons with
them.  Both are exact and the same for the evaluator.  The comparisons go by bytes but the
membership test goes by the collation of the column, so it also finds texts that the collation
takes for the same.
-/

namespace RowQuery

open Sql BuiltinDialect

/-- The comparisons with listed terms: one of them holds, or all of them are different. -/
def Term.comparisons (item : Term) (members : List Term) (negated : Bool) : Term :=
  let tests := members.map fun t => compare item (equality negated) t
  if negated then all tests else any tests

namespace CompileContext

variable {c : CompileContext} {index : Nat} {key : String} {b : Binding} {column : Column}
variable {params : List String} {collection : Term} {members : List Term} {texts : List String}
variable {negated : Bool}

/-! ## The column and the listed texts -/

section Pieces

variable (c) in
/-- A column in SQL. -/
def columnText (b : Binding) (column : Column) : String :=
  if c.bindings.length > 1 then c.dialect.quoteName b.label ++ "." ++ column.quotedName
  else column.quotedName

variable (c) in
/-- A column as a piece. -/
def columnPiece (b : Binding) (column : Column) : Piece :=
  { fragment := { sql := c.columnText b column, kind := column.kind, type := column.type,
                  name := some column.key } }

theorem column_eq_ok (bound : c.bindings[index]? = some b)
    (found : b.table.column? key = some column) :
    c.column index key = .ok (c.columnPiece b column) := by
  simp only [CompileContext.column, bound, Table.lookup, found]
  rfl

theorem lexemes?_columnText (dialect : c.dialect = .mysql) (quotes : c.QuotesColumns)
    (bound : c.bindings[index]? = some b) (found : b.table.column? key = some column) :
    mysql.lexemes? (c.columnText b column) = some [.name (c.columnPath b column)] := by
  have quoted := quotes b (List.mem_of_getElem? bound) column (Table.mem_of_column? found)
  rw [columnText, columnPath, quoted, dialect]
  split
  · exact lexemes?_qualified (d := mysql) b.label column.name
  · exact lexemes?_quoteName (d := mysql) column.name

/-- A text in the type of texts. -/
def textPiece (type : ColumnType) (text : String) : Piece :=
  { fragment := .literal (Dialect.mysql.quoteText text) (.text text) type }

/-- The literals of texts have one type. -/
theorem exists_textPiece (dialect : c.dialect = .mysql) :
    ∃ type, ∀ text, c.literal (.text text) = .ok (textPiece type text) := by
  have typed : ∃ type, ∀ text, literalType Dialect.mysql.types (.text text) = .ok type :=
    ⟨_, fun _ => rfl⟩
  obtain ⟨type, typed⟩ := typed
  refine ⟨type, fun text => literal_of_encoded (by simp [Value.kind]) (dialect ▸ typed text) ?_⟩
  rw [literalText, dialect]
  · rfl
  · simp

/-- A text next to a column of texts. -/
theorem operandText_textPiece (dialect : c.dialect = .mysql) (kind : column.kind = .text)
    (type : ColumnType) (text : String) :
    Fragment.operandText c.dialect (c.columnPiece b column).fragment
      (textPiece type text).fragment = mysql.dialect.quoteText text := by
  simp [Fragment.operandText, textPiece, columnPiece, Fragment.literal, Value.isNull, Value.kind,
    kind, Fragment.encode, Fragment.codec, Codec.ofKind, Codec.encode, dialect,
    BuiltinDialect.dialect]

end Pieces

/-! ## The membership test -/

variable (c) in
/-- The membership test of a column. -/
def amongText (b : Binding) (column : Column) (texts : List String) (negated : Bool) : String :=
  c.columnText b column ++ (if negated then " NOT IN " else " IN ") ++
    Text.bracketed (Text.join ", " (texts.map mysql.dialect.quoteText))

theorem memberFragments_texts (kind : column.kind = .text) (type : ColumnType)
    (texts : List String) :
    c.memberFragments (c.columnPiece b column).fragment (texts.map (textPiece type)) =
      .ok (texts.map fun text => (textPiece type text).fragment) := by
  induction texts with
  | nil => rfl
  | cons text texts ih =>
      have accepted : Comparison.eq.accepts (c.columnPiece b column).fragment.kind
          (textPiece type text).fragment.kind = true := by
        simp only [columnPiece, kind]
        rfl
      rw [List.map_cons, memberFragments, if_neg (by simp [textPiece, Fragment.isNull,
        Fragment.literal, Value.isNull]), accepted, ih]
      rfl

theorem member_texts (dialect : c.dialect = .mysql) (kind : column.kind = .text)
    (type : ColumnType) (present : texts ≠ []) :
    c.member (c.columnPiece b column) (texts.map (textPiece type)) negated =
      c.test (c.amongText b column texts negated) false true := by
  have fragments := memberFragments_texts (c := c) (b := b) kind type texts
  have noNull : ((texts.map (textPiece type)).any fun m => m.fragment.isNull) = false := by
    simp [textPiece, Fragment.isNull, Fragment.literal, Value.isNull]
  have noAggregate :
      ((texts.map fun text => (textPiece type text).fragment).any Fragment.aggregate) = false := by
    simp [textPiece, Fragment.literal]
  have written : ((texts.map fun text => (textPiece type text).fragment).map
      (Fragment.operandText c.dialect (c.columnPiece b column).fragment)) =
        texts.map mysql.dialect.quoteText := by
    rw [List.map_map]
    exact List.map_congr_left fun text _ => operandText_textPiece dialect kind type text
  have operand : c.operand (c.columnPiece b column) = (c.columnPiece b column).fragment := rfl
  simp only [member, operand, fragments, bind, Except.bind, written, noNull, noAggregate]
  rw [if_neg (by simpa using present), memberText, if_neg (by simpa using present)]
  rfl

theorem contains_texts (dialect : c.dialect = .mysql) (kind : column.kind = .text)
    (present : texts ≠ []) {whole : Piece}
    (constant : whole.fragment.constant = some (.list (texts.map .text))) :
    c.contains (c.columnPiece b column) whole negated =
      c.test (c.amongText b column texts negated) false true := by
  obtain ⟨type, encoded⟩ := exists_textPiece dialect
  have literals : (texts.map Value.text).mapM c.literal = .ok (texts.map (textPiece type)) := by
    rw [Except.mapM_eq_ok_iff, List.forall₂_map_left_iff, List.forall₂_map_right_iff,
      List.forall₂_same]
    exact fun text _ => encoded text
  have opened : (c.columnPiece b column).fragment.constant = none := rfl
  rw [contains, opened, constant, ← member_texts dialect kind type present]
  simp only [bind, Except.bind, literals]

/-- The literals of listed texts. -/
theorem compileItems_texts (params : List String) (dialect : c.dialect = .mysql)
    (literals : List.Forall₂ (fun t text => Term.Literal c t (.text text)) members texts) :
    ∃ pieces, Term.compileItems c params members = .ok pieces ∧
      pieces.mapM (fun p => p.fragment.constant) = some (texts.map .text) := by
  obtain ⟨type, encoded⟩ := exists_textPiece dialect
  refine ⟨texts.map (textPiece type), ?_, ?_⟩
  · rw [Term.compileItems_eq_ok_iff, List.forall₂_map_right_iff]
    exact literals.imp fun t text literal => ⟨literal.compile_eq.trans (encoded text), rfl⟩
  · rw [List.mapM_map]
    exact List.mapM_pure

theorem compile_among (dialect : c.dialect = .mysql) (bound : c.bindings[index]? = some b)
    (found : b.table.column? key = some column) (kind : column.kind = .text)
    (lists : Term.Lists c collection members)
    (literals : List.Forall₂ (fun t text => Term.Literal c t (.text text)) members texts)
    (present : texts ≠ []) :
    (Term.member (.field (.param index) key) collection negated).compile c params =
      c.test (c.amongText b column texts negated) false true := by
  have item : (Term.field (.param index) key).compile c params >>= Piece.exactly =
      .ok (c.columnPiece b column) := by
    rw [Term.compile, column_eq_ok bound found]
    rfl
  have whole : ∃ piece, c.literal (.list (texts.map .text)) = .ok piece :=
    ⟨_, rfl⟩
  obtain ⟨piece, listEq⟩ := whole
  obtain ⟨constant, -, exactness⟩ := constant_of_literal listEq
  cases lists with
  | tuple =>
      obtain ⟨pieces, piecesEq, constants⟩ := compileItems_texts params dialect literals
      rw [Term.compile, item, piecesEq]
      simp only [bind, Except.bind, constants, listEq]
      exact contains_texts dialect kind present constant
  | @values _ values literal =>
      obtain rfl : values = texts.map .text := by
        rw [List.forall₂_map_left_iff] at literals
        exact List.forall₂_eq_eq_eq ▸ List.forall₂_map_right_iff.2
          (literals.imp fun v text literal => literal.unique (.constant v) ▸ rfl)
      have noTuple : ∀ items, collection ≠ .tuple items := by
        rintro items rfl
        cases literal
      rw [Term.compile_member c params _ negated noTuple, item, literal.compile_eq, listEq]
      simp only [bind, Except.bind, Piece.exactly, exactness, if_true]
      exact contains_texts dialect kind present constant

/-! ## The comparisons -/

variable (c) in
/-- The comparison of a column with a text. -/
def comparisonText (b : Binding) (column : Column) (negated : Bool) (text : String) : String :=
  mysql.dialect.compareText (c.columnText b column) (equality negated)
    (mysql.dialect.quoteText text)

theorem compare_textPiece (dialect : c.dialect = .mysql) (kind : column.kind = .text)
    (type : ColumnType) (text shown : String) :
    c.compare shown (c.columnPiece b column) (equality negated) (textPiece type text) =
      c.test (c.comparisonText b column negated text) false true := by
  have codec : (c.columnPiece b column).fragment.codec = .text := by
    simp only [Fragment.codec, columnPiece, kind, Codec.ofKind]
  have written : c.compareFragments (c.operand (c.columnPiece b column)) (equality negated)
      (c.operand (textPiece type text)) = some (c.comparisonText b column negated text) := by
    change c.compareFragments (c.columnPiece b column).fragment (equality negated)
      (textPiece type text).fragment = _
    rw [compareFragments, Fragment.compare?, operandText_textPiece dialect kind, codec, dialect]
    rfl
  have accepted : (equality negated).accepts (c.columnPiece b column).fragment.kind
      (textPiece type text).fragment.kind = true := by
    simp only [columnPiece, kind]
    cases negated <;> rfl
  change c.compareOpen (c.columnPiece b column) (equality negated) (textPiece type text) = _
  rw [compareOpen, accepted]
  change (Walk.ofOption (c.compareFragments _ _ _) >>= _) = _
  rw [written]
  rfl

theorem compile_comparison (dialect : c.dialect = .mysql) (bound : c.bindings[index]? = some b)
    (found : b.table.column? key = some column) (kind : column.kind = .text) {t : Term}
    {text : String} (literal : Term.Literal c t (.text text)) :
    (Term.compare (.field (.param index) key) (equality negated) t).compile c params =
      c.test (c.comparisonText b column negated text) false true := by
  obtain ⟨type, encoded⟩ := exists_textPiece dialect
  rw [Term.compile, Term.compile, column_eq_ok bound found, literal.compile_eq, encoded]
  exact compare_textPiece dialect kind type text
    (Term.shownComparison params (.field (.param index) key) (equality negated) t)

variable (c) in
/-- The comparisons of a column with texts. -/
def comparisonsText (b : Binding) (column : Column) (texts : List String) (negated : Bool) :
    String :=
  chainText negated (texts.map (c.comparisonText b column negated))

/-- The truth values of a dialect have a type. -/
theorem exists_test (dialect : c.dialect = .mysql) :
    ∃ type, ∀ sql, c.test sql false true =
      .ok { fragment := { sql, kind := .bool, type, aggregate := false }, condition := true } := by
  have typed : ∃ type, resultType? Dialect.mysql.types .bool = some type := ⟨_, rfl⟩
  obtain ⟨type, typed⟩ := typed
  refine ⟨type, fun sql => ?_⟩
  rw [test, truthType, dialect, typed]
  rfl

theorem compile_comparisons (dialect : c.dialect = .mysql) (bound : c.bindings[index]? = some b)
    (found : b.table.column? key = some column) (kind : column.kind = .text)
    (literals : List.Forall₂ (fun t text => Term.Literal c t (.text text)) members texts)
    (present : texts ≠ []) :
    (Term.comparisons (.field (.param index) key) members negated).compile c params =
      c.test (c.comparisonsText b column texts negated) false true := by
  obtain ⟨type, tested⟩ := exists_test dialect
  let part (text : String) : Option Piece := some {
    fragment := { sql := c.comparisonText b column negated text, kind := .bool, type }
    condition := true }
  have parts : Term.compileParts c params (members.map fun t =>
      .compare (.field (.param index) key) (equality negated) t) = .ok (texts.map part) := by
    clear present
    induction literals with
    | nil => rfl
    | @cons t text members texts literal rest ih =>
        rw [List.map_cons, Term.compileParts, compile_comparison dialect bound found kind literal,
          ih, tested]
        rfl
  have joined : c.junction (texts.map part) negated =
      c.test (c.comparisonsText b column texts negated) false true := by
    have noAggregate : ((texts.map part).any fun part =>
        part.any fun p => p.fragment.aggregate) = false := by
      simp [part]
    have exactness : ((texts.map part).all fun part => part.any Piece.exact) = true := by
      simp [part]
    have written : (texts.map part).map c.partText =
        texts.map (c.comparisonText b column negated) := by
      rw [List.map_map]
      rfl
    unfold junction comparisonsText
    simp only [noAggregate, exactness, written]
    match texts, present with
    | [], present => exact absurd rfl present
    | [_], _ | _ :: _ :: _, _ => rfl
  cases negated <;> (
    rw [Term.comparisons]
    change (Term.compileParts c params _ >>= fun parts => c.junction parts _) = _
    rw [parts]
    exact joined)

end CompileContext

namespace Term

variable {c : CompileContext} {scope : Scope} {item collection : Term} {members : List Term}
variable {texts : List String} {stored : String} {negated : Bool}

/-! ## Evaluation -/

theorem compare_beq_eq (a b : String) : (Ord.compare a b == .eq) = (a == b) := by
  rw [Bool.eq_iff_iff]
  simp

theorem eval_compare_text (itemEq : item.eval scope = .ok (.text stored)) {t : Term} {text : String}
    (memberEq : t.eval scope = .ok (.text text)) (negated : Bool) :
    (compare item (equality negated) t).eval scope = .ok (.bool ((stored == text) != negated)) := by
  have holds : (equality negated).holds (some (Ord.compare stored text)) =
      ((stored == text) != negated) := by
    rw [← compare_beq_eq]
    cases negated <;> cases Ord.compare stored text <;> rfl
  have accepted : (equality negated).accepts .text .text = true := by cases negated <;> rfl
  rw [eval, itemEq, memberEq, ← holds]
  change (Value.compareBy (.text stored) (equality negated) (.text text)).map Value.bool = _
  simp [Value.compareBy, Value.isNull, Value.kind, accepted, Value.compare?, Except.map]

/-- Listed texts are known. -/
theorem allKnown_texts
    (literals : List.Forall₂ (fun t text => Literal c t (.text text)) members texts) :
    AllKnown c members (texts.map .text) := by
  rw [AllKnown, List.forall₂_map_right_iff]
  refine literals.imp fun t text literal scope v arguments evaluated => ?_
  rw [literal.eval_eq arguments] at evaluated
  obtain rfl := Except.ok.inj evaluated
  exact ⟨rfl, rfl⟩

theorem eval_among_texts (arguments : scope.arguments = c.arguments)
    (lists : Lists c collection members)
    (literals : List.Forall₂ (fun t text => Literal c t (.text text)) members texts)
    (itemEq : item.eval scope = .ok (.text stored)) :
    (member item collection negated).eval scope =
      .ok (.bool (texts.contains stored != negated)) := by
  have ended : ∃ v, (member item collection negated).eval scope = .ok v := by
    cases lists with
    | tuple =>
        have itemsEq : evalItems scope members = .ok (texts.map .text) := by
          rw [evalItems_eq_ok_iff, List.forall₂_map_right_iff]
          exact literals.imp fun t text literal => literal.eval_eq arguments
        rw [eval, itemEq, eval, itemsEq]
        exact ⟨_, rfl⟩
    | values literal =>
        rw [eval, itemEq, literal.eval_eq arguments]
        exact ⟨_, rfl⟩
  have found : ((texts.map Value.text).any fun w => w.looseEq (.text stored)) =
      texts.contains stored := by
    rw [List.any_map, List.contains_eq_any_beq]
    refine congrArg texts.any (funext fun text => ?_)
    rw [Bool.beq_comm, ← compare_beq_eq]
    rfl
  obtain ⟨v, evaluated⟩ := ended
  obtain ⟨a, vs, same, membersEq, rfl⟩ := lists.eval_member arguments evaluated
  obtain rfl := Except.ok.inj (itemEq.symm.trans same)
  have known := (allKnown_texts literals).amongMembers_eq arguments membersEq (.text stored)
  rw [evaluated, show isUnknown item (.text stored) = false from rfl, known, found]
  rfl

theorem eval_comparisons (arguments : scope.arguments = c.arguments)
    (literals : List.Forall₂ (fun t text => Literal c t (.text text)) members texts)
    (itemEq : item.eval scope = .ok (.text stored)) :
    (comparisons item members negated).eval scope =
      .ok (.bool (texts.contains stored != negated)) := by
  have tested : List.Forall₂ (fun t text => t.eval scope =
      .ok (.bool ((stored == text) != negated)))
        (members.map fun t => compare item (equality negated) t) texts := by
    rw [List.forall₂_map_left_iff]
    exact literals.imp fun t text literal =>
      eval_compare_text itemEq (literal.eval_eq arguments) negated
  unfold comparisons
  generalize members.map (fun t => compare item (equality negated) t) = tests at tested
  clear literals
  cases negated with
  | false =>
      change evalAny scope false tests = _
      induction tested with
      | nil => rfl
      | @cons t text tests texts head tail ih =>
          rw [evalAny, head, List.contains_cons]
          cases stored == text with
          | true => rfl
          | false => exact ih
  | true =>
      change evalAll scope false tests = _
      induction tested with
      | nil => rfl
      | @cons t text tests texts head tail ih =>
          rw [evalAll, head, List.contains_cons]
          cases stored == text with
          | true => rfl
          | false => exact ih

end Term

namespace CompileContext

variable {c : CompileContext}

/-- A condition that is a test is an exact restriction. -/
theorem restrict_of_test (dialect : c.dialect = .mysql) {e : Lambda}
    (arity : e.arity = c.bindings.length) {sql : String}
    (compiled : e.body.compile c e.params = c.test sql false true) :
    ∃ r, c.restrict e = .ok r ∧ r.exact = true ∧ r.fragment.sql = sql := by
  obtain ⟨type, tested⟩ := exists_test dialect
  have checked : c.checkArity e = .ok () := if_pos arity
  refine ⟨{ fragment := { sql, kind := .bool, type }, exact := true }, ?_, rfl, rfl⟩
  rw [restrict, checked, compiled, tested]
  rfl

end CompileContext

/-- A text that is the same as a listed one is listed, unless the collation joins it with others. -/
theorem any_same_eq_contains_iff {same : String → String → Bool} {texts : List String}
    {stored : String} (reflexive : same stored stored = true) :
    texts.any (same stored) = texts.contains stored ↔
      stored ∈ texts ∨ ∀ text ∈ texts, same stored text = false := by
  by_cases listed : stored ∈ texts
  · have found : texts.any (same stored) = true := List.any_eq_true.2 ⟨stored, listed, reflexive⟩
    simp [listed, found]
  · simp [listed]

/-- Whether a column is among listed texts is asked in two ways, both without reserve.  Both mean
the same outside of the database, and the comparisons also mean it there.  The membership test
goes by the collation: it agrees on those stored texts that are listed, or that are not the same as
any listed text to the collation. -/
theorem text_membership_agrees_iff {c : CompileContext} {index : Nat} {key : String} {b : Binding}
    {column : Column} {collection : Term} {members : List Term} {texts : List String}
    {negated : Bool} {among chain : Lambda} {same : String → String → Bool}
    (dialect : c.dialect = .mysql) (quotes : c.QuotesColumns)
    (bound : c.bindings[index]? = some b) (found : b.table.column? key = some column)
    (kind : column.kind = .text) (lists : Term.Lists c collection members)
    (literals : List.Forall₂ (fun t text => Term.Literal c t (.text text)) members texts)
    (present : texts ≠ []) (arity : among.arity = c.bindings.length)
    (body : among.body = .member (.field (.param index) key) collection negated)
    (chainArity : chain.arity = c.bindings.length)
    (chainBody : chain.body = Term.comparisons (.field (.param index) key) members negated)
    (reflexive : ∀ text, same text text = true) :
    ∃ r s, c.restrict among = .ok r ∧ r.exact = true ∧ c.restrict chain = .ok s ∧ s.exact = true ∧
      ∀ (row : List String → Option String) (stored : String) (scope : Scope),
        row (c.columnPath b column) = some stored → scope.arguments = c.arguments →
        scope.column index key = .ok (.text stored) →
        among.body.eval scope = .ok (.bool (texts.contains stored != negated)) ∧
        chain.body.eval scope = .ok (.bool (texts.contains stored != negated)) ∧
        collated same row s.fragment.sql = some (texts.contains stored != negated) ∧
        collated same row r.fragment.sql = some (texts.any (same stored) != negated) ∧
        (collated same row r.fragment.sql = collated same row s.fragment.sql ↔
          stored ∈ texts ∨ ∀ text ∈ texts, same stored text = false) := by
  obtain ⟨r, restricted, exactness, written⟩ := CompileContext.restrict_of_test dialect arity
    (body ▸ CompileContext.compile_among dialect bound found kind lists literals present)
  obtain ⟨s, restricted', exactness', written'⟩ :=
    CompileContext.restrict_of_test dialect chainArity
      (chainBody ▸ CompileContext.compile_comparisons dialect bound found kind literals present)
  refine ⟨r, s, restricted, exactness, restricted', exactness', fun row stored scope cell
    arguments here => ?_⟩
  have named := CompileContext.lexemes?_columnText dialect quotes bound found
  have itemEq : (Term.field (.param index) key).eval scope = .ok (.text stored) := by
    rw [Term.eval]
    exact here
  have byBytes : collated same row (c.comparisonsText b column texts negated) = _ :=
    collated_chain same named cell negated present
  have byCollation : collated same row (c.amongText b column texts negated) = _ :=
    collated_among same named cell negated present
  have both : some (texts.any (same stored) != negated) =
      some (texts.contains stored != negated) ↔
        texts.any (same stored) = texts.contains stored := by
    cases negated <;> simp
  rw [body, chainBody, written, written', byBytes, byCollation, both]
  exact ⟨Term.eval_among_texts arguments lists literals itemEq,
    Term.eval_comparisons arguments literals itemEq, rfl, rfl,
    any_same_eq_contains_iff (reflexive stored)⟩

section People

/-- A table with one column of texts. -/
def peopleContext : CompileContext where
  dialect := .mysql
  functions := {}
  bindings := [.ofTable {
    name := "people", quotedName := Dialect.mysql.quoteName "people"
    columns := [{ key := "name", name := "name", quotedName := Dialect.mysql.quoteName "name",
                  kind := .text, type := .varyingOf "VARCHAR" .varchar 16383 }] }]

/-- People who are not called so. -/
def notBob : Lambda where
  params := ["p"]
  body := .member (.field (.param 0) "name") (.tuple [.constant (.text "Bob")]) true
  bound := by decide

/-- The same with a comparison. -/
def differsFromBob : Lambda where
  params := ["p"]
  body := Term.comparisons (.field (.param 0) "name") [.constant (.text "Bob")] true
  bound := by decide

/-- A collation that ignores the case of letters. -/
def ignoresCase (a b : String) : Bool :=
  Text.asciiLower a == Text.asciiLower b

theorem peopleContext_quotesColumns : peopleContext.QuotesColumns := by
  intro b member column among
  obtain rfl := List.mem_singleton.1 member
  obtain rfl := List.mem_singleton.1 among
  rfl

theorem bob_is_lost :
    ∃ r s, peopleContext.restrict notBob = .ok r ∧ r.exact = true ∧
      peopleContext.restrict differsFromBob = .ok s ∧ s.exact = true ∧
      notBob.body.eval { rows := [[("name", .text "bob")]] } = .ok (.bool true) ∧
      collated ignoresCase (fun _ => some "bob") s.fragment.sql = some true ∧
      collated ignoresCase (fun _ => some "bob") r.fragment.sql = some false := by
  obtain ⟨r, s, restricted, exactness, restricted', exactness', agree⟩ :=
    @text_membership_agrees_iff peopleContext 0 "name" _ _ _ _ ["Bob"] true notBob differsFromBob
      ignoresCase rfl peopleContext_quotesColumns rfl rfl rfl (.tuple _) (.cons (.constant _) .nil)
      (by decide) rfl rfl rfl rfl fun text => beq_self_eq_true _
  obtain ⟨accepted, -, byBytes, byCollation, -⟩ :=
    agree (fun _ => some "bob") "bob" { rows := [[("name", .text "bob")]] } rfl rfl rfl
  exact ⟨r, s, restricted, exactness, restricted', exactness', accepted, byBytes, byCollation⟩

end People

end RowQuery
