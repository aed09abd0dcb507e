import RowQuery.Proofs.Degrading.Reached
import RowQuery.Proofs.Reach.Condition
import RowQuery.Proofs.Spelling.Piece

/-!
# What compiled terms spell

The SQL of a compiled term is an expression of the grammar without any opener of a comment, with an
exception for each of the two.  An operand is missing where a list is counted, and it may be missing
where a list is looked for in the rows.  On SQLite a comment opens where a negative interval is
subtracted from a date.
-/

namespace RowQuery

open RowQuery.Sql BuiltinDialect CompileContext

namespace Term

section

variable (c : CompileContext) (params : List String)

/-- A list is an operand in the SQL of a term, but has no text. -/
inductive MissesOperand : Term → Prop
  /-- A list is counted. -/
  | counted {name : String} {operand : Term} {p : Piece}
      (isCount : c.functions.function? name = some Function.count)
      (compiled : operand.compile c params = .ok p) (listed : isList p.fragment = true) :
      MissesOperand (call name [operand])
  /-- The rows tell whether a list is among others. -/
  | sought {item collection : Term} {negated : Bool} {p q : Piece}
      (compiled : item.compile c params = .ok p) (listed : p.fragment.kind = .list)
      (tested : (member item collection negated).compile c params = .ok q)
      (open_ : q.fragment.constant = none) : MissesOperand (member item collection negated)

/-- A negative interval is subtracted from a date of the rows. -/
inductive SubtractsNegative : Term → Prop
  | intro {l r : Term} {left right : Piece} {i : Calendar.Interval}
      (date : l.compile c params = .ok left) (isDate : left.fragment.kind = .date)
      (open_ : left.fragment.constant = none)
      (interval : r.compile c params = .ok right)
      (known : right.fragment.constant = some (.interval i))
      (negative : i.seconds.negative = true) : SubtractsNegative (arithmetic l .sub r)

end

variable {c : CompileContext} {params : List String} {d : BuiltinDialect}
variable {hollow openers : Prop}

theorem spells_items {items : List Term} {pieces : List Piece}
    (each : ∀ u ∈ items, ∀ p, u.compile c params = .ok p → p.Spells d hollow openers)
    (compiled : compileItems c params items = .ok pieces) :
    ∀ p ∈ pieces, p.Spells d hollow openers := by
  intro p member
  obtain ⟨u, among, ended⟩ := (compileItems_eq_ok_iff.1 compiled).flip.exists_of_mem member
  exact each u among p ended.1

/-- The parts of a junction are conditions. -/
theorem spells_parts (builtIn : c.BuiltIn d) {items : List Term} {parts : List (Option Piece)}
    (each : ∀ u ∈ items, ∀ p, u.compile c params = .ok p → p.Spells d hollow openers)
    (compiled : compileParts c params items = .ok parts) :
    ∀ p, some p ∈ parts → p.Spells d hollow openers ∧ p.condition = true := by
  intro p member
  obtain ⟨u, among, base, baseEq, condition⟩ := exists_of_mem_compileParts compiled member
  exact spells_asCondition builtIn (each u among base baseEq) condition

/-- A list is counted on its own. -/
theorem counts_one {name : String} {operands : List Term} {pieces : List Piece} {p : Piece}
    (compiled : compileItems c params operands = .ok pieces)
    (counted : c.call name Function.count pieces = .ok p) {piece : Piece} (among : piece ∈ pieces) :
    ∃ operand, operands = [operand] ∧ operand.compile c params = .ok piece := by
  rcases call_eq_ok counted with ⟨_, _, -, foldable, -, -⟩ | written
  · cases foldable
  · obtain ⟨rendering, rendered, -⟩ := rendered_eq_ok written
    rcases Function.writes_count rendered with ⟨none_, -⟩ | ⟨f, single, -⟩
    · rw [List.map_eq_nil_iff.1 none_] at among
      cases among
    · obtain ⟨only, rfl, -⟩ := List.map_eq_singleton_iff.1 single
      obtain rfl := List.mem_singleton.1 among
      obtain ⟨operand, rest, ended, none_, rfl⟩ :=
        List.forall₂_cons_right_iff.1 (compileItems_eq_ok_iff.1 compiled)
      obtain rfl := List.forall₂_nil_right_iff.1 none_
      exact ⟨operand, rfl, ended.1⟩

theorem spells_membership (builtIn : c.BuiltIn d) {item collection : Term} {negated : Bool}
    (missing : (member item collection negated).MissesOperand c params → hollow)
    (each : ∀ u ∈ (member item collection negated).ingredients, ∀ p,
      u.compile c params = .ok p → p.Spells d hollow openers)
    {p : Piece} (compiled : (member item collection negated).compile c params = .ok p) :
    p.Spells d hollow openers := by
  have sought {needle : Piece} (needleEq : item.compile c params = .ok needle)
      (listed : needle.fragment.kind = .list) (open_ : p.fragment.constant = none) : hollow :=
    missing (.sought needleEq listed compiled open_)
  by_cases tuples : ∃ members, collection = tuple members
  · obtain ⟨members, rfl⟩ := tuples
    change ∀ u ∈ item :: members, _ at each
    rw [List.forall_mem_cons] at each
    rw [compile] at compiled
    obtain ⟨needle, needleEq, rest⟩ := Except.bind_eq_ok_iff.1 compiled
    obtain ⟨pieces, piecesEq, compiled⟩ := Except.bind_eq_ok_iff.1 rest
    have needleEq := (compile_exactly_eq_ok_iff.1 needleEq).1
    have spells := each.1 needle needleEq
    split at compiled
    · obtain ⟨whole, wholeEq, compiled⟩ := Except.bind_eq_ok_iff.1 compiled
      exact spells_contains builtIn spells (spells_literal builtIn wholeEq) (sought needleEq)
        compiled
    · exact spells_member builtIn spells (spells_items each.2 piecesEq) (sought needleEq) compiled
  · have noTuple : ∀ members, collection ≠ tuple members := fun members same =>
      tuples ⟨members, same⟩
    rw [ingredients_member negated noTuple] at each
    rw [compile_member _ _ _ _ noTuple] at compiled
    obtain ⟨needle, whole, ⟨needleEq, -⟩, ⟨wholeEq, -⟩, compiled⟩ := compile_pair_eq_ok compiled
    exact spells_contains builtIn (each item (by simp) needle needleEq)
      (each collection (by simp) whole wholeEq) (sought needleEq) compiled

/-- One step of the compiler writes an expression, if what it puts together is spelled. -/
theorem spells_of_ingredients (builtIn : c.BuiltIn d) {t : Term}
    (missing : t.MissesOperand c params → hollow)
    (signed : d = sqlite → t.SubtractsNegative c params → openers)
    (each : ∀ u ∈ t.ingredients, ∀ p, u.compile c params = .ok p → p.Spells d hollow openers)
    {p : Piece} (compiled : t.compile c params = .ok p) : p.Spells d hollow openers := by
  have sound := builtIn.functions.sound
  have keeps := builtIn.functions.keepsSpelling
  cases t with
  | param index => cases compiled
  | field target name =>
      by_cases column : ∃ i, target = param i
      · obtain ⟨i, rfl⟩ := column
        exact spells_column builtIn compiled
      · have noColumn : ∀ i, target ≠ param i := fun i same => column ⟨i, same⟩
        rw [ingredients_field name noColumn] at each
        rw [compile_field _ _ _ noColumn] at compiled
        obtain ⟨base, baseEq, compiled⟩ := Except.bind_eq_ok_iff.1 compiled
        exact spells_field builtIn
          (each target (by simp) base (compile_exactly_eq_ok_iff.1 baseEq).1) compiled
  | constant value => exact spells_literal builtIn compiled
  | argument name => exact spells_folded builtIn compiled
  | subscript target key =>
      rw [compile] at compiled
      obtain ⟨_, _, -, -, compiled⟩ := compile_pair_eq_ok compiled
      obtain ⟨_, _, _, -, -, -, written⟩ := subscript_eq_ok compiled
      exact spells_literal builtIn written
  | tuple items =>
      rw [compile] at compiled
      obtain ⟨values, -, written⟩ := Except.bind_eq_ok_iff.1 compiled
      exact spells_literal builtIn written
  | call name operands =>
      rw [compile] at compiled
      obtain ⟨f, found, rest⟩ := Except.bind_eq_ok_iff.1 compiled
      obtain ⟨pieces, piecesEq, compiled⟩ := Except.bind_eq_ok_iff.1 rest
      have found := Walk.ofOption_eq_ok_iff.1 found
      refine spells_call builtIn (keeps.functions name f found) (sound.functions name f found)
        (spells_items each piecesEq) (fun isCount piece among listed => missing ?_) compiled
      subst isCount
      obtain ⟨operand, rfl, ended⟩ := counts_one piecesEq compiled among
      exact .counted found ended listed
  | method target name operands =>
      rw [compile] at compiled
      obtain ⟨f, found, rest⟩ := Except.bind_eq_ok_iff.1 compiled
      obtain ⟨first, firstEq, rest⟩ := Except.bind_eq_ok_iff.1 rest
      obtain ⟨pieces, piecesEq, compiled⟩ := Except.bind_eq_ok_iff.1 rest
      have found := Walk.ofOption_eq_ok_iff.1 found
      change ∀ u ∈ target :: operands, _ at each
      rw [List.forall_mem_cons] at each
      refine spells_call builtIn (keeps.methods name f found) (sound.methods name f found)
        (List.forall_mem_cons.2 ⟨each.1 first (compile_exactly_eq_ok_iff.1 firstEq).1,
          spells_items each.2 piecesEq⟩) (fun isCount => ?_) compiled
      have plain := keeps.plain name f found
      rw [isCount] at plain
      cases plain
  | compare l op r =>
      rw [compile] at compiled
      obtain ⟨left, right, ⟨leftEq, -⟩, ⟨rightEq, -⟩, compiled⟩ := compile_pair_eq_ok compiled
      exact spells_compare builtIn (each l (by simp [ingredients, parts]) left leftEq)
        (each r (by simp [ingredients, parts]) right rightEq) compiled
  | member item collection negated => exact spells_membership builtIn missing each compiled
  | arithmetic l op r =>
      rw [compile] at compiled
      obtain ⟨left, right, ⟨leftEq, -⟩, ⟨rightEq, -⟩, compiled⟩ := compile_pair_eq_ok compiled
      have spells := each l (by simp [ingredients, parts]) left leftEq
      have spells' := each r (by simp [ingredients, parts]) right rightEq
      refine spells_arithmetic builtIn spells spells' (fun unfolded minus => ?_) compiled
      obtain ⟨i, known, negative⟩ := minus.exists_negative (spells_operand builtIn spells')
      obtain ⟨database, date, rfl, -, -⟩ := minus
      rw [operand_kind] at date
      rw [operand_constant] at known
      have open_ : left.fragment.constant = none :=
        unfolded.resolve_right fun none_ => by cases known.symm.trans none_
      exact signed database (.intro leftEq date open_ rightEq known negative)
  | all items =>
      rw [compile] at compiled
      obtain ⟨parts, partsEq, compiled⟩ := Except.bind_eq_ok_iff.1 compiled
      exact spells_junction builtIn (spells_parts builtIn each partsEq) compiled
  | any items =>
      rw [compile] at compiled
      obtain ⟨parts, partsEq, compiled⟩ := Except.bind_eq_ok_iff.1 compiled
      exact spells_junction builtIn (spells_parts builtIn each partsEq) compiled
  | not inner =>
      rw [compile] at compiled
      obtain ⟨piece, pieceEq, compiled⟩ := Except.bind_eq_ok_iff.1 compiled
      obtain ⟨condition, conditionEq, exactness⟩ := Except.bind_eq_ok_iff.1 pieceEq
      obtain ⟨rfl, -⟩ := Piece.exactly_eq_ok_iff.1 exactness
      obtain ⟨base, baseEq, conditionEq⟩ := Except.bind_eq_ok_iff.1 conditionEq
      have spells := each inner (by simp [ingredients, parts]) base baseEq
      obtain ⟨spells, isCondition⟩ := spells_asCondition builtIn spells conditionEq
      exact spells_negation builtIn spells isCondition compiled
  | negate inner =>
      rw [compile] at compiled
      obtain ⟨piece, pieceEq, compiled⟩ := Except.bind_eq_ok_iff.1 compiled
      have spells := each inner (by simp [ingredients, parts]) piece
        (compile_exactly_eq_ok_iff.1 pieceEq).1
      exact spells_negative builtIn spells compiled
  | named inner name =>
      rw [compile] at compiled
      obtain ⟨piece, pieceEq, named⟩ := Except.bind_eq_ok_iff.1 compiled
      have spells := each inner (by simp [ingredients, parts]) piece pieceEq
      obtain rfl := Except.ok.inj named
      exact spells_named spells name

/-- Whatever the compiler goes through is spelled. -/
theorem spells_of_goesThrough (builtIn : c.BuiltIn d) {whole : Term}
    (missing : ∀ s, whole.GoesThrough s → s.MissesOperand c params → hollow)
    (signed : d = sqlite → ∀ s, whole.GoesThrough s → s.SubtractsNegative c params → openers)
    (t : Term) (through : whole.GoesThrough t) {p : Piece} (compiled : t.compile c params = .ok p) :
    p.Spells d hollow openers :=
  spells_of_ingredients builtIn (missing t through)
    (fun database => signed database t through)
    (fun u among _ compiled =>
      spells_of_goesThrough builtIn missing signed u (through.tail among) compiled) compiled
termination_by t
decreasing_by exact sizeOf_lt_of_mem_ingredients among

end Term

end RowQuery

/-!
# What is compiled of expressions

An expression is compiled to a restriction, to a value or to columns.  None of these texts opens a
comment, and no operand is missing in any of them, but for the exceptions of terms.
-/

namespace RowQuery

open RowQuery.Sql BuiltinDialect CompileContext

/-- The texts that an expression is compiled to, in each of the three ways. -/
inductive CompileContext.Writes (c : CompileContext) (e : Lambda) : String → Prop
  | restriction {rendering : Rendering} (restricted : c.restrict e = .ok rendering) :
      Writes c e rendering.fragment.sql
  | value {f : Fragment} (valued : c.value e = .ok f) : Writes c e f.sql
  | columns {fs : List Fragment} {f : Fragment} (listed : c.columns e = .ok fs) (among : f ∈ fs) :
      Writes c e f.sql

variable {c : CompileContext} {d : BuiltinDialect} {hollow openers : Prop} {e : Lambda}
variable {sql : String}

namespace CompileContext

variable (builtIn : c.BuiltIn d)
  (missing : ∀ s, e.body.GoesThrough s → s.MissesOperand c e.params → hollow)
  (signed : d = sqlite → ∀ s, e.body.GoesThrough s → s.SubtractsNegative c e.params → openers)

include builtIn missing signed

/-- A list is no value. -/
theorem spells_exactValue {t : Term} (through : e.body.GoesThrough t) {f : Fragment}
    (valued : c.exactValue e t = .ok f) : d.Spells hollow openers f.sql := by
  obtain ⟨p, compiled, single, rfl⟩ := exactValue_eq_ok valued
  have spells := Term.spells_of_goesThrough builtIn missing signed t through compiled
  refine (spells_operand builtIn spells).spells fun listed => ?_
  rw [isList, operand_constant, ← isList, single] at listed
  cases listed

theorem spells_writes (writes : c.Writes e sql) : d.Spells hollow openers sql := by
  cases writes with
  | restriction restricted =>
      obtain ⟨_, -, rest⟩ := Except.bind_eq_ok_iff.1 restricted
      split at rest
      · rename_i piece compiled
        obtain ⟨base, baseEq, condition⟩ := Except.bind_eq_ok_iff.1 compiled
        obtain rfl := Except.ok.inj rest
        have spells := Term.spells_of_goesThrough builtIn missing signed e.body .refl baseEq
        obtain ⟨spells, isCondition⟩ := spells_asCondition builtIn spells condition
        exact spells.of_condition isCondition
      · cases rest
      · split at rest
        · rename_i piece always
          obtain rfl := Except.ok.inj rest
          exact (spells_truth builtIn always).of_condition (Tests.truth always).condition
        · cases rest
  | value valued =>
      obtain ⟨_, -, valued⟩ := Except.bind_eq_ok_iff.1 valued
      exact spells_exactValue builtIn missing signed .refl valued
  | @columns fs f listed among =>
      obtain ⟨_, -, named⟩ := Except.bind_eq_ok_iff.1 listed
      obtain ⟨t, entry, g, valued, same⟩ := namedValues_mem named among
      have text : f.sql = g.sql := by rw [same]
      rw [text]
      exact spells_exactValue builtIn missing signed (Term.goesThrough_entry entry) valued

end CompileContext

/-! ## Comments -/

namespace Term

variable {params : List String} {s : Term} {p : Piece}

/-- On SQLite a comment opens where a negative interval is subtracted from a date. -/
theorem SubtractsNegative.hasOpener (builtIn : c.BuiltIn sqlite)
    (subtracts : s.SubtractsNegative c params) (compiled : s.compile c params = .ok p) :
    sqlite.hasOpener p.fragment.sql = true := by
  obtain ⟨date, isDate, open_, interval, known, negative⟩ := subtracts
  rename_i left right i
  have spells {t : Term} {q : Piece} (ended : t.compile c params = .ok q) :
      (c.operand q).Spells sqlite True True :=
    spells_operand builtIn (spells_of_goesThrough builtIn (fun _ _ _ => trivial)
      (fun _ _ _ _ => trivial) t .refl ended)
  rw [compile] at compiled
  obtain ⟨_, _, ⟨leftEq, -⟩, ⟨rightEq, -⟩, compiled⟩ := compile_pair_eq_ok compiled
  obtain rfl := Except.ok.inj (date.symm.trans leftEq)
  obtain rfl := Except.ok.inj (interval.symm.trans rightEq)
  rcases arithmetic_eq_ok compiled with ⟨k, -, -, folded, -⟩ |
    ⟨-, kind, sql, type, -, written, rfl⟩
  · cases open_.symm.trans folded
  have date : (c.operand left).kind = .date := by rw [operand_kind, isDate]
  have known' : (c.operand right).constant = some (.interval i) := by rw [operand_constant, known]
  have interval : (c.operand right).kind = .interval := (spells rightEq).kind _ known'
  have minus := ((spells rightEq).negative rfl i known').2 negative
  obtain ⟨lexemes, scans, -⟩ := (spells leftEq).of_kind (by rw [date]; decide)
  have dates : Dialect.sqliteDates (.date, (c.operand left).sql) .sub
      (.interval, (c.operand right).sql) = some sql := by
    rw [Fragment.arithmetic?, Fragment.codec, date, builtIn.dialect] at written
    rw [← date, ← interval]
    exact written
  rw [hasOpener_eq_hasComment (by decide)]
  exact hasComment_sqliteDates scans.1 minus dates

end Term

/-- In what is compiled no comment opens, but for one case: it does on SQLite, wherever a negative
interval is subtracted from a date of the rows. -/
theorem comments_open_in_dates_only (builtIn : c.BuiltIn d) (e : Lambda) :
    (∀ sql, c.Writes e sql → d.hasOpener sql = true →
      d = sqlite ∧ ∃ s, e.body.GoesThrough s ∧ s.SubtractsNegative c e.params) ∧
    ∀ (s : Term) (p : Piece), d = sqlite → s.SubtractsNegative c e.params →
      s.compile c e.params = .ok p → d.hasOpener p.fragment.sql = true := by
  constructor
  · intro sql writes opens
    have spells : d.Spells True (d = sqlite ∧
        ∃ s, e.body.GoesThrough s ∧ s.SubtractsNegative c e.params) sql :=
      spells_writes builtIn (fun _ _ _ => trivial)
        (fun database s through subtracts => ⟨database, s, through, subtracts⟩) writes
    obtain ⟨_, scans, -⟩ := spells
    exact scans.2 opens
  · rintro s p rfl subtracts compiled
    exact subtracts.hasOpener builtIn compiled

section Invoices

/-- A table of days. -/
def invoices (d : BuiltinDialect) : Table where
  name := "invoices"
  quotedName := d.dialect.quoteName "invoices"
  columns := [{ key := "due", name := "due", quotedName := d.dialect.quoteName "due",
                kind := .date, type := .plainOf "DATE" .date }]

def invoiceContext (d : BuiltinDialect) : CompileContext :=
  d.workspace.context [.ofTable (invoices d)] []

theorem invoiceContext_builtIn (d : BuiltinDialect) : (invoiceContext d).BuiltIn d := by
  refine ⟨rfl, .inl rfl, fun b member column among => ?_⟩
  obtain rfl := List.mem_singleton.1 member
  obtain rfl := List.mem_singleton.1 among
  rfl

/-- The day a week later, as a day less a negative week. -/
def weekAfter : Lambda where
  params := ["t"]
  body := .arithmetic (.field (.param 0) "due") .sub
    (.constant (.interval ⟨-604800000000000, by decide⟩))
  bound := by decide

/-- A day that is moved opens a comment on SQLite, and none on PostgreSQL. -/
theorem weekAfter_opens_comment :
    (∃ sql, (invoiceContext sqlite).Writes weekAfter sql ∧ sqlite.hasOpener sql = true ∧
      ∃ s, weekAfter.body.GoesThrough s ∧
        s.SubtractsNegative (invoiceContext sqlite) weekAfter.params) ∧
    ∃ sql, (invoiceContext postgres).Writes weekAfter sql ∧ postgres.hasOpener sql = false := by
  constructor
  · obtain ⟨f, valued, text⟩ : ∃ f, (invoiceContext sqlite).value weekAfter = .ok f ∧
        f.sql = "date(\"due\", printf('%+.6f seconds', --604800))" := ⟨_, rfl, by decide +kernel⟩
    have opens : sqlite.hasOpener f.sql = true := by
      rw [text]
      decide +kernel
    obtain ⟨found, -⟩ := comments_open_in_dates_only (invoiceContext_builtIn sqlite) weekAfter
    exact ⟨f.sql, .value valued, opens, (found f.sql (.value valued) opens).2⟩
  · obtain ⟨f, valued⟩ : ∃ f, (invoiceContext postgres).value weekAfter = .ok f := ⟨_, rfl⟩
    obtain ⟨found, -⟩ := comments_open_in_dates_only (invoiceContext_builtIn postgres) weekAfter
    refine ⟨f.sql, .value valued, Bool.eq_false_iff.2 fun opens => ?_⟩
    cases (found f.sql (.value valued) opens).1

end Invoices

/-! ## Operands -/

namespace Term

variable {params : List String} {name : String} {operand : Term} {p q : Piece}

/-- The count of a list has no operand. -/
theorem sql_of_counted (builtIn : c.BuiltIn d)
    (isCount : c.functions.function? name = some Function.count)
    (compiled : operand.compile c params = .ok p) (listed : isList p.fragment = true)
    (counted : (call name [operand]).compile c params = .ok q) : q.fragment.sql = "COUNT()" := by
  have spells : p.Spells d True True :=
    spells_of_goesThrough builtIn (fun _ _ _ => trivial) (fun _ _ _ _ => trivial) operand .refl
      compiled
  rw [compile] at counted
  obtain ⟨f, found, rest⟩ := Except.bind_eq_ok_iff.1 counted
  obtain ⟨pieces, piecesEq, counted⟩ := Except.bind_eq_ok_iff.1 rest
  obtain rfl := Option.some.inj (isCount.symm.trans (Walk.ofOption_eq_ok_iff.1 found))
  obtain ⟨piece, rest, ⟨pieceEq, -⟩, none_, rfl⟩ :=
    List.forall₂_cons_left_iff.1 (compileItems_eq_ok_iff.1 piecesEq)
  obtain rfl := List.forall₂_nil_left_iff.1 none_
  obtain rfl := Except.ok.inj (compiled.symm.trans pieceEq)
  have written : call.rendered c Function.count [p] = .ok q :=
    (call_eq_ok counted).resolve_left fun ⟨_, _, _, foldable, _⟩ => by cases foldable
  obtain ⟨rendering, rendered, rfl⟩ := rendered_eq_ok written
  have text := (Function.writes_typed? rendered).sql
  have blank : (c.operand p).sql = "" := by
    refine (spells_operand builtIn spells).blank ?_
    rwa [isList, operand_constant]
  rw [blank] at text
  exact text

end Term

/-- The call of a function without its operand is no expression. -/
theorem not_phrase_of_count : d.lexemes? "COUNT()" =
      some [.word "COUNT", .symbol '(', .symbol ')'] ∧
    ¬Phrase False .expression [.word "COUNT", .symbol '(', .symbol ')'] := by
  refine ⟨by cases d <;> rfl, fun phrase => ?_⟩
  obtain ⟨lexeme, among, value⟩ := phrase.exists_value
  have none_ : ∀ lexeme ∈ [Lexeme.word "COUNT", .symbol '(', .symbol ')'],
      lexeme.isValue = false := by decide
  exact absurd (value.symm.trans (none_ lexeme among)) (by decide)

/-- In what is compiled all brackets are balanced.  It is an expression of the grammar in which no
operand is missing, unless a list is counted or looked for in the rows; the count of a list is none
on any database. -/
theorem operands_are_present (builtIn : c.BuiltIn d) (e : Lambda) :
    (∀ sql, c.Writes e sql → ∃ lexemes, d.lexemes? sql = some lexemes ∧
      level 0 lexemes = some 0 ∧
      ((∀ s, e.body.GoesThrough s → ¬s.MissesOperand c e.params) →
        Phrase False .expression lexemes)) ∧
    ∀ (name : String) (operand : Term) (p q : Piece),
      c.functions.function? name = some Function.count →
      operand.compile c e.params = .ok p → isList p.fragment = true →
      (Term.call name [operand]).compile c e.params = .ok q →
      ∃ lexemes, d.lexemes? q.fragment.sql = some lexemes ∧ ¬Phrase False .expression lexemes := by
  constructor
  · intro sql writes
    have spells : d.Spells True True sql :=
      spells_writes builtIn (fun _ _ _ => trivial) (fun _ _ _ _ => trivial) writes
    obtain ⟨lexemes, scans, phrase⟩ := spells
    refine ⟨lexemes, scans.1, phrase.level_eq 0, fun present => ?_⟩
    have spells : d.Spells False True sql :=
      spells_writes builtIn present (fun _ _ _ _ => trivial) writes
    obtain ⟨others, scans', phrase'⟩ := spells
    obtain rfl := Option.some.inj (scans.1.symm.trans scans'.1)
    exact phrase'
  · intro name operand p q isCount compiled listed counted
    rw [Term.sql_of_counted builtIn isCount compiled listed counted]
    exact ⟨_, not_phrase_of_count⟩

section Counts

/-- The number of days. -/
def dueCount : Lambda where
  params := ["t"]
  body := .call "count" [.field (.param 0) "due"]
  bound := by decide

/-- The number of a pair. -/
def pairCount : Lambda where
  params := ["t"]
  body := .call "count" [.tuple [.constant (.int 1), .constant (.int 2)]]
  bound := by decide

theorem dueCount_misses_none (s : Term) (through : dueCount.body.GoesThrough s) :
    ¬s.MissesOperand (invoiceContext postgres) dueCount.params := by
  intro misses
  rcases through.cases_head with rfl | ⟨u, among, later⟩
  · cases misses with
    | counted _ compiled listed =>
        obtain rfl := Except.ok.inj compiled
        cases listed
  · obtain rfl := List.mem_singleton.1 among
    rcases later.cases_head with rfl | ⟨v, among, -⟩
    · cases misses
    · cases among

/-- The count of a column is an expression, that of a pair is none. -/
theorem pairCount_misses_operand :
    (∃ sql lexemes, (invoiceContext postgres).Writes dueCount sql ∧
      postgres.lexemes? sql = some lexemes ∧ Phrase False .expression lexemes) ∧
    ∃ sql lexemes, (invoiceContext postgres).Writes pairCount sql ∧
      postgres.lexemes? sql = some lexemes ∧ ¬Phrase False .expression lexemes := by
  have builtIn := invoiceContext_builtIn postgres
  constructor
  · obtain ⟨f, valued⟩ : ∃ f, (invoiceContext postgres).value dueCount = .ok f := ⟨_, rfl⟩
    obtain ⟨lexemes, known, -, phrase⟩ :=
      (operands_are_present builtIn dueCount).1 f.sql (.value valued)
    exact ⟨f.sql, lexemes, .value valued, known, phrase dueCount_misses_none⟩
  · obtain ⟨f, q, valued, compiled, same⟩ : ∃ f q,
        (invoiceContext postgres).value pairCount = .ok f ∧
        pairCount.body.compile (invoiceContext postgres) pairCount.params = .ok q ∧
        f.sql = q.fragment.sql := ⟨_, _, rfl, rfl, rfl⟩
    obtain ⟨lexemes, known, missing⟩ :=
      (operands_are_present builtIn pairCount).2 "count" _ _ q rfl rfl rfl compiled
    exact ⟨f.sql, lexemes, .value valued, same ▸ known, missing⟩

end Counts

end RowQuery
