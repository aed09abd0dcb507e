import RowQuery.Proofs.Sql.Lexeme

/-!
# Expressions as lexemes

The lexemes of an SQL expression close their round brackets and contain no keyword of joins.
Names are columns of tables in reach, and aggregates are called or not.  An expression of this
kind stays one between fixed texts, and so expressions are put together from smaller ones.
-/

namespace RowQuery

namespace Sql

namespace Lexeme

/-- The depth in round brackets behind a lexeme. -/
def shift (depth : Nat) : Lexeme → Option Nat
  | symbol '(' => some (depth + 1)
  | symbol ')' => if depth = 0 then none else some (depth - 1)
  | _ => some depth

def isJoinWord (letters : String) : Bool :=
  ["INNER", "LEFT", "RIGHT", "JOIN", "ON"].contains (Text.asciiUpper letters)

def isAggregateWord (letters : String) : Bool :=
  ["COUNT", "MIN", "MAX", "SUM", "AVG"].contains (Text.asciiUpper letters)

end Lexeme

/-- The depth in round brackets behind some lexemes, if none is closed that was not opened. -/
def level (depth : Nat) (lexemes : List Lexeme) : Option Nat :=
  lexemes.foldlM Lexeme.shift depth

theorem level_append {depth next last : Nat} {first second : List Lexeme}
    (opened : level depth first = some next) (closed : level next second = some last) :
    level depth (first ++ second) = some last := by
  rw [level, List.foldlM_append, ← level, opened]
  exact closed

theorem shift_add {depth next : Nat} {lexeme : Lexeme}
    (shifted : lexeme.shift depth = some next) (outer : Nat) :
    lexeme.shift (outer + depth) = some (outer + next) := by
  unfold Lexeme.shift at shifted ⊢
  split at shifted
  · obtain rfl := Option.some.inj shifted
    rfl
  · split at shifted
    · cases shifted
    · rename_i inner
      obtain rfl := Option.some.inj shifted
      have deep : outer + depth ≠ 0 := by omega
      have same : outer + depth - 1 = outer + (depth - 1) := by omega
      simp only [deep, if_false, same]
  · obtain rfl := Option.some.inj shifted
    rfl

/-- What is closed on its own is closed inside of brackets. -/
theorem level_add {depth last : Nat} {lexemes : List Lexeme}
    (closed : level depth lexemes = some last) (outer : Nat) :
    level (outer + depth) lexemes = some (outer + last) := by
  induction lexemes generalizing depth with
  | nil =>
      obtain rfl := Option.some.inj closed
      rfl
  | cons lexeme lexemes ih =>
      rw [level, List.foldlM_cons] at closed ⊢
      obtain ⟨next, shifted, rest⟩ := Option.bind_eq_some_iff.1 closed
      exact Option.bind_eq_some_iff.2 ⟨outer + next, shift_add shifted outer, ih rest⟩

/-- The tables in reach of an expression. -/
structure Reach where
  labels : List String
  /-- Names of columns stand behind the label of their table. -/
  qualified : Bool

namespace Reach

/-- A column of a table in reach. -/
def Column (reach : Reach) (path : List String) : Prop :=
  if reach.qualified then ∃ label ∈ reach.labels, ∃ column, path = [label, column]
  else ∃ column, path = [column]

/-- The lexeme may stand in an expression. -/
def Allows (reach : Reach) (aggregates : Bool) : Lexeme → Prop
  | .word letters => Lexeme.isJoinWord letters = false ∧
      (Lexeme.isAggregateWord letters = true → aggregates = true)
  | .name path => reach.Column path
  | .text _ | .symbol _ => True

theorem Allows.weaken {reach : Reach} {few more : Bool} (weaker : few = true → more = true)
    {lexeme : Lexeme} (allows : reach.Allows few lexeme) : reach.Allows more lexeme := by
  cases lexeme with
  | word letters => exact ⟨allows.1, fun aggregate => weaker (allows.2 aggregate)⟩
  | name | text | symbol => exact allows

end Reach

/-- The lexeme may stand in every expression, or in those that call aggregates. -/
def Lexeme.isFixed (aggregates : Bool) : Lexeme → Bool
  | word letters => !isJoinWord letters && (aggregates || !isAggregateWord letters)
  | name _ => false
  | text _ | symbol _ => true

theorem allows_of_isFixed {aggregates : Bool} {lexeme : Lexeme}
    (fixed : lexeme.isFixed aggregates = true) (reach : Reach) :
    reach.Allows aggregates lexeme := by
  cases lexeme with
  | word letters =>
      rw [Lexeme.isFixed, Bool.and_eq_true, Bool.not_eq_true'] at fixed
      refine ⟨fixed.1, fun aggregate => ?_⟩
      rw [aggregate, Bool.not_true, Bool.or_false] at fixed
      exact fixed.2
  | name => cases fixed
  | text | symbol => trivial

end Sql

open Sql Scanner

namespace BuiltinDialect

variable (d : BuiltinDialect)

/-- From a depth in round brackets on a text is read to the last closing bracket, and all its
lexemes may stand in an expression. -/
def Reads (reach : Reach) (aggregates : Bool) (depth : Nat) (text : String) : Prop :=
  ∃ lexemes, d.lexemes? text = some lexemes ∧
    (∀ lexeme ∈ lexemes, reach.Allows aggregates lexeme) ∧ level depth lexemes = some 0

/-- The text is an expression over the tables in reach. -/
def InReach (reach : Reach) (aggregates : Bool) (sql : String) : Prop :=
  d.Reads reach aggregates 0 sql

/-- The depth behind a fixed text that an expression can follow. -/
def opened? (aggregates : Bool) (depth : Nat) (fixed : String) : Option Nat :=
  match idle.run d fixed.toList with
  | some (lexemes, idle) =>
      if lexemes.all (Lexeme.isFixed aggregates) then level depth lexemes else none
  | _ => none

/-- A fixed text closes the open brackets. -/
def closes (depth : Nat) (fixed : String) : Bool :=
  match d.lexemes? fixed with
  | some lexemes => lexemes.all (Lexeme.isFixed false) && level depth lexemes == some 0
  | none => false

variable {d} {reach : Reach} {aggregates few more : Bool} {depth next : Nat}
variable {fixed sql text : String}

theorem Reads.weaken (reads : d.Reads reach few depth text)
    (weaker : few = true → more = true) : d.Reads reach more depth text := by
  obtain ⟨lexemes, found, allowed, closed⟩ := reads
  exact ⟨lexemes, found, fun lexeme member => (allowed lexeme member).weaken weaker, closed⟩

/-- A fixed text that may call aggregates, where more is allowed than it needs. -/
theorem Reads.opening_of (opened : d.opened? few depth fixed = some next)
    (weaker : few = true → more = true) (rest : d.Reads reach more next text) :
    d.Reads reach more depth (fixed ++ text) := by
  unfold opened? at opened
  split at opened
  · rename_i lexemes ran
    split at opened
    · rename_i each
      obtain ⟨later, found, allowed, closed⟩ := rest
      refine ⟨lexemes ++ later, lexemes?_append_of_idle ran found, ?_, level_append opened closed⟩
      intro lexeme member
      rcases List.mem_append.1 member with own | other
      · exact (allows_of_isFixed (List.all_eq_true.1 each lexeme own) reach).weaken weaker
      · exact allowed lexeme other
    · cases opened
  · cases opened

theorem Reads.opening (opened : d.opened? false depth fixed = some next)
    (rest : d.Reads reach aggregates next text) :
    d.Reads reach aggregates depth (fixed ++ text) :=
  .opening_of opened nofun rest

theorem Reads.operand (inReach : d.InReach reach aggregates sql) (separated : Separated text)
    (rest : d.Reads reach aggregates depth text) :
    d.Reads reach aggregates depth (sql ++ text) := by
  obtain ⟨lexemes, found, allowed, closed⟩ := inReach
  obtain ⟨later, found', allowed', closed'⟩ := rest
  refine ⟨lexemes ++ later, lexemes?_append_of_separated found separated found', ?_,
    level_append (level_add closed depth) closed'⟩
  intro lexeme member
  rcases List.mem_append.1 member with own | other
  · exact allowed lexeme own
  · exact allowed' lexeme other

theorem Reads.closing (closes : d.closes depth fixed = true) :
    d.Reads reach aggregates depth fixed := by
  unfold BuiltinDialect.closes at closes
  split at closes
  · rename_i lexemes found
    rw [Bool.and_eq_true, List.all_eq_true, beq_iff_eq] at closes
    refine ⟨lexemes, found, fun lexeme member => ?_, closes.2⟩
    have allowed := allows_of_isFixed (closes.1 lexeme member) reach
    exact allowed.weaken fun call => absurd call Bool.false_ne_true
  · cases closes

/-! ## Laws of expressions

A law is something that SQL expressions have in common.  It is kept by fixed texts without names
and keywords, wherever these open and close brackets around expressions or stand between them.  So
it holds of an operation whenever it holds of the operands. -/

/-- What expressions have in common, those that call aggregates and those that call none.  It is
said of the texts that close some open brackets. -/
structure Law (d : BuiltinDialect) where
  Reads : Bool → Nat → String → Prop
  weaken {few more : Bool} {depth : Nat} {text : String} (reads : Reads few depth text)
    (weaker : few = true → more = true) : Reads more depth text
  opening {aggregates : Bool} {depth next : Nat} {fixed text : String}
    (opened : d.opened? false depth fixed = some next) (rest : Reads aggregates next text) :
    Reads aggregates depth (fixed ++ text)
  operand {aggregates : Bool} {depth : Nat} {sql text : String} (holds : Reads aggregates 0 sql)
    (separated : Separated text) (rest : Reads aggregates depth text) :
    Reads aggregates depth (sql ++ text)
  closing {aggregates : Bool} {depth : Nat} {fixed : String}
    (closes : d.closes depth fixed = true) : Reads aggregates depth fixed

/-- Names are columns of tables in reach. -/
def reachLaw (d : BuiltinDialect) (reach : Reach) : d.Law where
  Reads := d.Reads reach
  weaken := Reads.weaken
  opening := Reads.opening
  operand := Reads.operand
  closing := Reads.closing

variable {d : BuiltinDialect}

/-- The law holds of an expression. -/
def Law.Holds (law : d.Law) (aggregates : Bool) (sql : String) : Prop :=
  law.Reads aggregates 0 sql

theorem InReach.holds {reach : Reach} {aggregates : Bool} {sql : String}
    (inReach : d.InReach reach aggregates sql) : (d.reachLaw reach).Holds aggregates sql :=
  inReach

namespace Law.Holds

variable {law : d.Law} {aggregates few more : Bool} {sql : String}

theorem weaken (holds : law.Holds few sql) (weaker : few = true → more = true) :
    law.Holds more sql :=
  law.weaken holds weaker

theorem of_closes (closes : d.closes 0 sql = true) : law.Holds aggregates sql :=
  law.closing closes

/-- What is read as fixed lexemes is like a fixed text. -/
theorem of_lexemes {lexemes : List Lexeme} (found : d.lexemes? sql = some lexemes)
    (fixed : ∀ lexeme ∈ lexemes, lexeme.isFixed false = true) (closed : level 0 lexemes = some 0) :
    law.Holds aggregates sql := by
  refine of_closes ?_
  rw [closes, found]
  simpa [closed] using fixed

/-- An expression between two fixed texts. -/
theorem enclosed {front back : String} (holds : law.Holds aggregates sql) (depth : Nat)
    (opened : d.opened? false 0 front = some depth) (separated : Separated back)
    (closes : d.closes depth back = true) : law.Holds aggregates (front ++ sql ++ back) := by
  rw [String.append_assoc]
  exact law.opening opened (law.operand holds separated (law.closing closes))

/-- Two expressions with a fixed text between them. -/
theorem beside {l r between : String} (left : law.Holds aggregates l)
    (right : law.Holds aggregates r) (separated : Separated between) (present : between ≠ "")
    (opened : d.opened? false 0 between = some 0) : law.Holds aggregates (l ++ (between ++ r)) :=
  law.operand left (separated_append separated present) (law.opening opened right)

/-- Two expressions between three fixed texts. -/
theorem framed {l r front between back : String} (left : law.Holds aggregates l)
    (right : law.Holds aggregates r) (outer inner : Nat)
    (opened : d.opened? false 0 front = some outer) (separated : Separated between)
    (present : between ≠ "") (opened' : d.opened? false outer between = some inner)
    (separated' : Separated back) (closes : d.closes inner back = true) :
    law.Holds aggregates (front ++ l ++ between ++ r ++ back) := by
  simp only [String.append_assoc]
  exact law.opening opened (law.operand left (separated_append separated present)
    (law.opening opened' (law.operand right separated' (law.closing closes))))

end Law.Holds

end BuiltinDialect

end RowQuery

/-!
# Comments in SQL texts

Outside of quotation marks two minus signs begin a comment, and so do a slash and a star.  What
follows is no part of the statement then.  MySQL wants a blank behind the minus signs, and has the
number sign as well.

On SQLite a negative interval that is subtracted from a date is written behind another minus sign.
-/

namespace RowQuery

open Sql

namespace BuiltinDialect

/-- A comment begins with a character outside of quotation marks and what follows it. -/
def opensComment (d : BuiltinDialect) (c : Char) : List Char → Bool
  | '-' :: text => c == '-' && (d != mysql || text.head?.all Char.isWhitespace)
  | '*' :: _ => c == '/'
  | _ => d == mysql && c == '#'

end BuiltinDialect

namespace Sql.Scanner

variable (d : BuiltinDialect)

/-- A comment begins in a text. -/
def meetsComment : Scanner → List Char → Bool
  | _, [] => false
  | s, c :: text =>
      match s.step d c with
      | some (_, idle) => d.opensComment c text || meetsComment idle text
      | some (_, next) => meetsComment next text
      | none => false

variable {d} {s last : Scanner} {c : Char} {text more : List Char} {lexemes : List Lexeme}

/-- A comment behind a text that can be scanned. -/
theorem meetsComment_append (ran : s.run d text = some (lexemes, last))
    (meets : last.meetsComment d more = true) : s.meetsComment d (text ++ more) = true := by
  induction text generalizing s lexemes with
  | nil =>
      obtain ⟨rfl, rfl⟩ := Prod.mk.inj (Option.some.inj ran)
      exact meets
  | cons c text ih =>
      rw [run] at ran
      obtain ⟨⟨own, between⟩, stepped, rest⟩ := Option.bind_eq_some_iff.1 ran
      obtain ⟨⟨others, reached⟩, ran, ended⟩ := Option.map_eq_some_iff.1 rest
      obtain ⟨rfl, rfl⟩ := Prod.mk.inj ended
      rw [List.cons_append, meetsComment, stepped]
      cases between with
      | idle => exact Bool.or_eq_true_iff.2 (.inr (ih ran))
      | word | inside | escaping | behind | dotted => exact ih ran

/-- A comment in a text that does not go on with the lexeme before it. -/
theorem meetsComment_pending (ended : s.pending = some lexemes)
    (other : s.continue? d c = none) (meets : idle.meetsComment d (c :: text) = true) :
    s.meetsComment d (c :: text) = true := by
  have idly : idle.step d c = some (start d c) := rfl
  have stepped : s.step d c = some (lexemes ++ (start d c).1, (start d c).2) := by
    rw [step, other, ended]
    rfl
  rw [meetsComment, idly] at meets
  rw [meetsComment, stepped]
  cases started : start d c with
  | mk own next =>
      rw [started] at meets
      cases next <;> exact meets

end Sql.Scanner

open Scanner

namespace BuiltinDialect

variable (d : BuiltinDialect)

/-- A comment begins in the text. -/
def hasComment (sql : String) : Bool :=
  idle.meetsComment d sql.toList

variable {d} {seconds l : String} {lexemes : List Lexeme}

/-- On SQLite a negative number of seconds becomes a comment where it is subtracted from a date. -/
theorem hasComment_sqliteDates (date : sqlite.lexemes? l = some lexemes)
    (negative : seconds.toList.head? = some '-') {text : String}
    (written : Dialect.sqliteDates (.date, l) .sub (.interval, seconds) = some text) :
    sqlite.hasComment text = true := by
  obtain ⟨digits, minus⟩ := List.head?_eq_some_iff.1 negative
  obtain ⟨early, late, last, ran, pending, -⟩ := lexemes?_eq_some_iff.1 date
  have shown : some ("date" ++ "(" ++ (l ++ ", " ++ ("printf('%+.6f seconds', " ++ "-" ++ seconds ++
      ")")) ++ ")") = some text := written
  have letters : text.toList = "date(".toList ++ (l.toList ++
      (", printf('%+.6f seconds', ".toList ++ '-' :: ('-' :: digits ++ "))".toList))) := by
    rw [← Option.some.inj shown]
    simp only [String.toList_append, minus, List.append_assoc]
    rfl
  obtain ⟨_, call⟩ : ∃ before, idle.run sqlite "date(".toList = some (before, idle) := ⟨_, rfl⟩
  obtain ⟨_, format⟩ : ∃ before, idle.run sqlite ", printf('%+.6f seconds', ".toList =
      some (before, idle) := ⟨_, rfl⟩
  have signs : idle.meetsComment sqlite ('-' :: ('-' :: digits ++ "))".toList)) = true := rfl
  have separate : last.continue? sqlite ',' = none := continue?_separator pending rfl
  have behind := meetsComment_pending pending separate (meetsComment_append format signs)
  rw [hasComment, letters]
  exact meetsComment_append call (meetsComment_append ran behind)

end BuiltinDialect

end RowQuery
