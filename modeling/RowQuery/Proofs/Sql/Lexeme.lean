import RowQuery.Proofs.Sql.Quotation

/-!
# The lexemes of SQL texts

A scanner goes through a text one character at a time and finds the words, the symbols and what
stands between quotation marks, which depend on the database.  A dot between two names qualifies
the second.  Nothing is skipped but blanks: two minus signs in a row are two symbols.

The lexemes of a text that is put together are those of its parts, if each part is separated from
the next.
-/

namespace RowQuery

namespace Sql

/-- What SQL texts are made of. -/
inductive Lexeme where
  /-- A keyword, the name of a function, or a part of a number. -/
  | word (letters : String)
  | text (content : String)
  /-- A quoted name behind those that qualify it. -/
  | name (path : List String)
  | symbol (c : Char)
  deriving DecidableEq

/-- What stands between quotation marks. -/
inductive Marked where
  | text
  | name (path : List String)

namespace Marked

def lexeme : Marked → List Char → Lexeme
  | text, content => .text (String.ofList content)
  | name path, content => .name (path ++ [String.ofList content])

/-- The marks. -/
def quotation (d : BuiltinDialect) : Marked → Quotation
  | text => d.textQuotation
  | name _ => d.nameQuotation

end Marked

/-- What the scanner is in the middle of. -/
inductive Scanner where
  | idle
  | word (letters : List Char)
  /-- Between the marks. -/
  | inside (m : Marked) (content : List Char)
  /-- Between the marks, behind a backslash. -/
  | escaping (m : Marked) (content : List Char)
  /-- Behind a mark that is the last one or the first of two. -/
  | behind (m : Marked) (content : List Char)
  /-- Behind the dot of a qualified name. -/
  | dotted (path : List String)

namespace Scanner

/-- The character belongs to words. -/
def isWordChar (c : Char) : Bool :=
  c.isAlphanum || c == '_'

/-- The lexeme that is complete where another one begins. -/
def pending : Scanner → Option (List Lexeme)
  | idle => some []
  | word letters => some [.word (String.ofList letters)]
  | behind m content => some [m.lexeme content]
  | inside .. | escaping .. | dotted _ => none

variable (d : BuiltinDialect)

/-- The first character of a lexeme. -/
def start (c : Char) : List Lexeme × Scanner :=
  if c = d.textQuotation.mark then ([], inside .text [])
  else if c = d.nameQuotation.mark then ([], inside (.name []) [])
  else if isWordChar c then ([], word [c])
  else if c.isWhitespace then ([], idle)
  else ([.symbol c], idle)

/-- A character that belongs to the current lexeme. -/
def continue? (c : Char) : Scanner → Option Scanner
  | idle => none
  | word letters => if isWordChar c then some (word (letters ++ [c])) else none
  | inside m content =>
      if c = (m.quotation d).mark then some (behind m content)
      else if (m.quotation d).escapes && c == '\\' then some (escaping m content)
      else some (inside m (content ++ [c]))
  | escaping m content => some (inside m (content ++ Quotation.escaped c))
  | behind m content =>
      if c = (m.quotation d).mark then some (inside m (content ++ [c]))
      else
        match m with
        | .text => none
        | .name path => if c = '.' then some (dotted (path ++ [String.ofList content])) else none
  | dotted path => if c = d.nameQuotation.mark then some (inside (.name path) []) else none

/-- The next character; the lexeme ends before a character that does not belong to it. -/
def step (s : Scanner) (c : Char) : Option (List Lexeme × Scanner) :=
  match s.continue? d c with
  | some next => some ([], next)
  | none => s.pending.map fun before => (before ++ (start d c).1, (start d c).2)

/-- The lexemes that are complete at the end of a text, and where the scanner is then. -/
def run : Scanner → List Char → Option (List Lexeme × Scanner)
  | s, [] => some ([], s)
  | s, c :: text => (s.step d c).bind fun (before, next) =>
      (run next text).map fun (later, last) => (before ++ later, last)

variable {d} {s next last : Scanner} {c : Char} {text more : List Char}
variable {before later : List Lexeme}

theorem run_cons (stepped : s.step d c = some (before, next))
    (rest : next.run d text = some (later, last)) :
    s.run d (c :: text) = some (before ++ later, last) := by
  rw [run, stepped, Option.bind_some]
  exact congrArg (Option.map _) rest

theorem run_continue (continued : s.continue? d c = some next) :
    s.run d (c :: text) = next.run d text := by
  have stepped : s.step d c = some ([], next) := by rw [step, continued]
  rw [run, stepped, Option.bind_some]
  exact Option.map_id' (x := next.run d text)

theorem run_append (first : s.run d text = some (before, next))
    (second : next.run d more = some (later, last)) :
    s.run d (text ++ more) = some (before ++ later, last) := by
  induction text generalizing s before with
  | nil =>
      obtain ⟨rfl, rfl⟩ := Prod.mk.inj (Option.some.inj first)
      exact second
  | cons c text ih =>
      rw [run] at first
      obtain ⟨⟨own, between⟩, stepped, rest⟩ := Option.bind_eq_some_iff.1 first
      obtain ⟨⟨others, reached⟩, ran, ended⟩ := Option.map_eq_some_iff.1 rest
      obtain ⟨rfl, rfl⟩ := Prod.mk.inj ended
      rw [List.cons_append, run_cons stepped (ih ran), List.append_assoc]

/-- A lexeme ends before a character that does not belong to it. -/
theorem run_pending (ended : s.pending = some before) (other : s.continue? d c = none)
    (rest : idle.run d (c :: text) = some (later, last)) :
    s.run d (c :: text) = some (before ++ later, last) := by
  rw [run] at rest
  obtain ⟨⟨own, between⟩, stepped, rest⟩ := Option.bind_eq_some_iff.1 rest
  obtain ⟨⟨others, reached⟩, ran, whole⟩ := Option.map_eq_some_iff.1 rest
  obtain ⟨rfl, rfl⟩ := Prod.mk.inj whole
  have started : start d c = (own, between) := Option.some.inj stepped
  have stepped : s.step d c = some (before ++ own, between) := by
    rw [step, other, ended, started]
    rfl
  rw [run_cons stepped ran, List.append_assoc]

/-- The character belongs to no lexeme that began before it. -/
def isSeparator (c : Char) : Bool :=
  !(isWordChar c || ['\'', '"', Dialect.backquote, '.'].contains c)

theorem continue?_separator (ended : s.pending = some before) (separator : isSeparator c = true) :
    s.continue? d c = none := by
  simp only [isSeparator, Bool.not_eq_true', Bool.or_eq_false_iff, List.contains_eq_mem,
    List.mem_cons, List.not_mem_nil, or_false, decide_eq_false_iff_not, not_or] at separator
  obtain ⟨noWord, quote, doubleQuote, backquote, dot⟩ := separator
  have unmarked (m : Marked) : c ≠ (m.quotation d).mark := by
    cases m <;> cases d <;> assumption
  cases s with
  | idle => rfl
  | word letters => rw [continue?, noWord, if_neg Bool.false_ne_true]
  | behind m content =>
      cases m with
      | text => exact if_neg (unmarked .text)
      | name path => exact (if_neg (unmarked (.name path))).trans (if_neg dot)
  | inside | escaping | dotted => cases ended

/-! ## Between the marks -/

/-- A special character that is doubled stands for itself. -/
theorem continue?_special {m : Marked} {content : List Char}
    (special : (m.quotation d).isSpecial c = true) :
    ∃ next, (inside m content).continue? d c = some next ∧
      next.continue? d c = some (inside m (content ++ [c])) := by
  by_cases same : c = (m.quotation d).mark
  · exact ⟨behind m content, if_pos same, if_pos same⟩
  · have escape : (m.quotation d).escapes = true ∧ c = '\\' := by
      simpa [Quotation.isSpecial, same] using special
    obtain ⟨escapes, rfl⟩ := escape
    refine ⟨escaping m content, ?_, rfl⟩
    rw [continue?, if_neg same, escapes]
    rfl

theorem continue?_plain {m : Marked} {content : List Char}
    (plain : (m.quotation d).isSpecial c = false) :
    (inside m content).continue? d c = some (inside m (content ++ [c])) := by
  rw [Quotation.isSpecial, Bool.or_eq_false_iff, beq_eq_false_iff_ne] at plain
  rw [continue?, if_neg plain.1, plain.2]
  rfl

theorem run_special {m : Marked} {content : List Char}
    (special : (m.quotation d).isSpecial c = true) :
    (inside m content).run d (c :: c :: text) = (inside m (content ++ [c])).run d text := by
  obtain ⟨next, first, second⟩ := continue?_special special
  rw [run_continue first, run_continue second]

theorem run_plain {m : Marked} {content : List Char}
    (plain : (m.quotation d).isSpecial c = false) :
    (inside m content).run d (c :: text) = (inside m (content ++ [c])).run d text :=
  run_continue (continue?_plain plain)

/-- What is doubled between the marks is read as it was. -/
theorem run_doubled (m : Marked) (content before : List Char) :
    (inside m before).run d
        ((m.quotation d).doubled content ++ [(m.quotation d).mark]) =
      some ([], behind m (before ++ content)) := by
  induction content generalizing before with
  | nil =>
      rw [List.append_nil]
      exact run_continue (if_pos rfl)
  | cons c content ih =>
      have rest := ih (before ++ [c])
      rw [List.append_assoc, List.singleton_append] at rest
      rw [Quotation.doubled_cons, ← rest]
      cases special : (m.quotation d).isSpecial c with
      | true => exact run_special special
      | false => exact run_plain special

end Scanner

end Sql

open Sql Scanner

namespace BuiltinDialect

variable (d : BuiltinDialect)

/-- The lexemes of a text, if it does not end between quotation marks. -/
def lexemes? (sql : String) : Option (List Lexeme) :=
  (idle.run d sql.toList).bind fun (lexemes, last) => last.pending.map (lexemes ++ ·)

/-- The text does not go on with a lexeme that began before it. -/
def Separated (sql : String) : Prop :=
  ∀ c ∈ sql.toList.head?, isSeparator c = true

variable {d} {first second quoted : String} {lexemes later : List Lexeme} {content : List Char}

theorem separated_of_head {c : Char} (head : first.toList.head? = some c)
    (separator : isSeparator c = true) : Separated first := by
  intro c' head'
  rw [head] at head'
  exact Option.some.inj head' ▸ separator

theorem separated_bracket : Separated ")" :=
  separated_of_head rfl rfl

theorem separated_append (separated : Separated first) (present : first ≠ "") :
    Separated (first ++ second) := by
  intro c head
  refine separated c ?_
  rw [String.toList_append] at head
  cases letters : first.toList with
  | nil => exact absurd (String.toList_eq_nil_iff.1 letters) present
  | cons c' rest =>
      rw [letters] at head
      exact head

theorem lexemes?_eq_some_iff : d.lexemes? first = some lexemes ↔
    ∃ early late last, idle.run d first.toList = some (early, last) ∧
      last.pending = some late ∧ lexemes = early ++ late := by
  rw [lexemes?, Option.bind_eq_some_iff]
  constructor
  · rintro ⟨⟨early, last⟩, ran, ended⟩
    obtain ⟨late, pending, rfl⟩ := Option.map_eq_some_iff.1 ended
    exact ⟨early, late, last, ran, pending, rfl⟩
  · rintro ⟨early, late, last, ran, pending, rfl⟩
    exact ⟨(early, last), ran, Option.map_eq_some_iff.2 ⟨late, pending, rfl⟩⟩

/-- Behind a text that leaves the scanner idle another one is read on its own. -/
theorem lexemes?_append_of_idle (closed : idle.run d first.toList = some (lexemes, idle))
    (rest : d.lexemes? second = some later) :
    d.lexemes? (first ++ second) = some (lexemes ++ later) := by
  obtain ⟨early, late, last, ran, pending, rfl⟩ := lexemes?_eq_some_iff.1 rest
  refine lexemes?_eq_some_iff.2 ⟨lexemes ++ early, late, last, ?_, pending, ?_⟩
  · rw [String.toList_append, run_append closed ran]
  · rw [List.append_assoc]

/-- A text that is separated from the one before it is read on its own. -/
theorem lexemes?_append_of_separated (front : d.lexemes? first = some lexemes)
    (separated : Separated second) (rest : d.lexemes? second = some later) :
    d.lexemes? (first ++ second) = some (lexemes ++ later) := by
  obtain ⟨early, late, between, ran, ended, rfl⟩ := lexemes?_eq_some_iff.1 front
  obtain ⟨early', late', last, ran', ended', rfl⟩ := lexemes?_eq_some_iff.1 rest
  cases letters : second.toList with
  | nil =>
      rw [letters] at ran'
      obtain ⟨rfl, rfl⟩ := Prod.mk.inj (Option.some.inj ran')
      obtain rfl := Option.some.inj ended'
      refine lexemes?_eq_some_iff.2 ⟨early, late, between, ?_, ended, ?_⟩
      · rw [String.toList_append, letters, List.append_nil, ran]
      · rw [List.append_nil, List.append_nil]
  | cons c text =>
      have other := continue?_separator (d := d) ended (separated c (by rw [letters]; rfl))
      rw [letters] at ran'
      refine lexemes?_eq_some_iff.2 ⟨early ++ (late ++ early'), late', last, ?_, ended', ?_⟩
      · rw [String.toList_append, letters, run_append ran (run_pending ended other ran')]
      · simp only [List.append_assoc]

/-- The lexemes of two texts with a fixed text between them. -/
theorem lexemes?_beside {between : String} {fixed : List Lexeme}
    (front : d.lexemes? first = some lexemes) (separated : Separated between)
    (present : between ≠ "") (closed : idle.run d between.toList = some (fixed, idle))
    (rest : d.lexemes? second = some later) :
    d.lexemes? (first ++ (between ++ second)) = some (lexemes ++ (fixed ++ later)) :=
  lexemes?_append_of_separated front (separated_append separated present)
    (lexemes?_append_of_idle closed rest)

/-- A text in front of a closing bracket, behind a fixed text. -/
theorem lexemes?_enclosed {opening : String} {before : List Lexeme}
    (opens : idle.run d opening.toList = some (before, idle))
    (inner : d.lexemes? first = some lexemes) :
    d.lexemes? (opening ++ first ++ ")") = some (before ++ (lexemes ++ [.symbol ')'])) := by
  have closes : d.lexemes? ")" = some [.symbol ')'] := by cases d <;> rfl
  rw [String.append_assoc]
  exact lexemes?_append_of_idle opens
    (lexemes?_append_of_separated inner separated_bracket closes)

/-! ## Quoted texts and names -/

/-- A quoted text behind a lexeme that it does not go on with. -/
theorem run_quoted {s : Scanner} (encloses : d.textQuotation.Encloses content quoted)
    (ended : s.pending = some lexemes) (other : s.continue? d d.textQuotation.mark = none) :
    s.run d quoted.toList = some (lexemes, behind .text content) := by
  have started : idle.step d d.textQuotation.mark = some ([], inside .text []) := by
    rw [step, continue?, start, if_pos rfl]
    rfl
  have idly := run_cons started (run_doubled (d := d) .text content [])
  rw [encloses]
  exact (run_pending ended other idly).trans (by rw [List.append_nil, List.append_nil]; rfl)

theorem lexemes?_of_encloses (encloses : d.textQuotation.Encloses content quoted) :
    d.lexemes? quoted = some [.text (String.ofList content)] :=
  lexemes?_eq_some_iff.2 ⟨[], _, _, run_quoted encloses rfl rfl, rfl, rfl⟩

theorem lexemes?_quoteText (text : String) :
    d.lexemes? (d.dialect.quoteText text) = some [.text text] := by
  rw [lexemes?_of_encloses (d.quoteText_encloses text), String.ofList_toList]

theorem run_quoteName {s : Scanner} {path : List String} (name : String)
    (begins : s.step d d.nameQuotation.mark = some ([], inside (.name path) [])) :
    s.run d (d.dialect.quoteName name).toList = some ([], behind (.name path) name.toList) := by
  rw [d.quoteName_encloses name]
  exact run_cons begins (run_doubled (d := d) (.name path) name.toList [])

theorem idle_step_nameMark : idle.step d d.nameQuotation.mark = some ([], inside (.name []) []) := by
  cases d <;> rfl

theorem lexemes?_quoteName (name : String) :
    d.lexemes? (d.dialect.quoteName name) = some [.name [name]] := by
  refine lexemes?_eq_some_iff.2
    ⟨[], _, _, run_quoteName name idle_step_nameMark, rfl, ?_⟩
  simp [Marked.lexeme]

theorem continue?_dot (label : String) :
    (behind (.name []) label.toList).continue? d '.' = some (dotted [label]) := by
  rw [← String.ofList_toList (s := label)]
  cases d <;> simp [continue?, Marked.quotation, nameQuotation, Dialect.backquote]

theorem dotted_step_nameMark (path : List String) :
    (dotted path).step d d.nameQuotation.mark = some ([], inside (.name path) []) := by
  rw [step, continue?, if_pos rfl]

theorem lexemes?_qualified (label name : String) :
    d.lexemes? (d.dialect.quoteName label ++ "." ++ d.dialect.quoteName name) =
      some [.name [label, name]] := by
  have behindDot := (run_continue (d := d) (continue?_dot label)).trans
    (run_quoteName name (dotted_step_nameMark [label]))
  have whole := run_append (run_quoteName (d := d) label idle_step_nameMark) behindDot
  refine lexemes?_eq_some_iff.2 ⟨[], [.name [label, name]], behind (.name [label]) name.toList,
    ?_, ?_, rfl⟩
  · rw [String.append_assoc, String.toList_append, String.toList_append]
    exact whole
  · simp [pending, Marked.lexeme]

end BuiltinDialect

end RowQuery
