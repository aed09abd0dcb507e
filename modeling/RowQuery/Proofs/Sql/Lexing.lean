import RowQuery.Dialect.Builtin
import RowQuery.Proofs.Sql.Parsing

/-!
# The tokens of SQL texts

A lexer that goes through a text one character at a time.  Names stand between marks,
which depend on the database; a mark inside a name is doubled, and a dot between two
names qualifies the second.  A text whose tokens do not depend on what follows it,
as long as this is separated from it, can be put together with others of that kind.
-/

namespace RowQuery.Sql

open RowQuery.Number

/-- What the lexer is in the middle of. -/
inductive Lexer where
  | idle
  | number (value : Nat)
  | word (letters : List Char)
  | minus
  | less
  | greater
  | comment
  /-- Inside the marks of a name. -/
  | quoted (path : List String) (name : List Char)
  /-- Behind a mark that ends a name or is the first of two. -/
  | closed (path : List String) (name : List Char)
  /-- Behind the dot of a qualified name. -/
  | dotted (path : List String)

namespace Lexer

/-- The keywords of conditions. -/
def keyword? : List Char → Option Token
  | ['T', 'R', 'U', 'E'] => some (.truth true)
  | ['F', 'A', 'L', 'S', 'E'] => some (.truth false)
  | ['N', 'U', 'L', 'L'] => some .null
  | ['O', 'R'] => some .or
  | ['A', 'N', 'D'] => some .and
  | ['N', 'O', 'T'] => some .not
  | ['I', 'S'] => some .is
  | ['I', 'N'] => some .within
  | _ => none

/-- The token that ends where the next one begins. -/
def pending : Lexer → Option (List Token)
  | idle => some []
  | number value => some [.number value]
  | word letters => (keyword? letters).map fun token => [token]
  | minus => some [.minus]
  | less => some [.compare .lt]
  | greater => some [.compare .gt]
  | closed path name => some [.name (path ++ [String.ofList name])]
  | comment | quoted .. | dotted _ => none

/-- The first character of a token. -/
def start (mark c : Char) : Option (List Token × Lexer) :=
  if c = mark then some ([], quoted [] [])
  else if isDigit c then some ([], number (digitOf c))
  else if c.isUpper then some ([], word [c])
  else
    match c with
    | ' ' => some ([], idle)
    | '(' => some ([.opening], idle)
    | ')' => some ([.closing], idle)
    | ',' => some ([.comma], idle)
    | '+' => some ([.plus], idle)
    | '*' => some ([.star], idle)
    | '%' => some ([.percent], idle)
    | '=' => some ([.compare .eq], idle)
    | '-' => some ([], minus)
    | '<' => some ([], less)
    | '>' => some ([], greater)
    | _ => none

/-- A character that belongs to the current token. -/
def continue? (mark c : Char) : Lexer → Option (List Token × Lexer)
  | number value => if isDigit c then some ([], number (value * 10 + digitOf c)) else none
  | word letters => if c.isUpper then some ([], word (letters ++ [c])) else none
  | minus => if c = '-' then some ([], comment) else none
  | less =>
      if c = '=' then some ([.compare .le], idle)
      else if c = '>' then some ([.compare .ne], idle)
      else none
  | greater => if c = '=' then some ([.compare .ge], idle) else none
  | comment => some ([], comment)
  | quoted path name =>
      if c = mark then some ([], closed path name) else some ([], quoted path (name ++ [c]))
  | closed path name =>
      if c = mark then some ([], quoted path (name ++ [c]))
      else if c = '.' then some ([], dotted (path ++ [String.ofList name]))
      else none
  | dotted path => if c = mark then some ([], quoted path []) else none
  | idle => none

/-- The next character; the token ends before a character that it does not go on
with. -/
def step (mark : Char) (lexer : Lexer) (c : Char) : Option (List Token × Lexer) :=
  match continue? mark c lexer with
  | some next => some next
  | none => (pending lexer).bind fun before =>
      (start mark c).map fun (tokens, next) => (before ++ tokens, next)

/-- The tokens of a text. -/
def scan (mark : Char) : Lexer → List Char → Option (List Token)
  | lexer, [] => pending lexer
  | lexer, c :: text => (step mark lexer c).bind fun (tokens, next) =>
      (scan mark next text).map (tokens ++ ·)

/-- The marks around names. -/
def IsMark (mark : Char) : Prop :=
  mark = '"' ∨ mark = Dialect.backquote

/-- What follows a token: the end or a character that belongs to no other token. -/
def Separated (rest : List Char) : Prop :=
  ∀ c ∈ rest.head?, c = ' ' ∨ c = ')' ∨ c = ','

variable {mark : Char}

theorem step_idle (c : Char) : step mark idle c = start mark c := by
  rw [step, continue?, pending, Option.bind_some]
  exact Option.map_id' (x := start mark c)

theorem scan_start {c : Char} (text : List Char) {tokens : List Token} {next : Lexer}
    (started : start mark c = some (tokens, next)) :
    scan mark idle (c :: text) = (scan mark next text).map (tokens ++ ·) := by
  rw [scan, step_idle, started, Option.bind_some]

theorem scan_continue {lexer : Lexer} {c : Char} (text : List Char) {tokens : List Token}
    {next : Lexer} (continued : continue? mark c lexer = some (tokens, next)) :
    scan mark lexer (c :: text) = (scan mark next text).map (tokens ++ ·) := by
  rw [scan, step, continued, Option.bind_some]

theorem scan_start_silently {c : Char} (text : List Char) {next : Lexer}
    (started : start mark c = some ([], next)) :
    scan mark idle (c :: text) = scan mark next text :=
  (scan_start text started).trans Option.map_id'

theorem scan_continue_silently {lexer : Lexer} {c : Char} (text : List Char) {next : Lexer}
    (continued : continue? mark c lexer = some ([], next)) :
    scan mark lexer (c :: text) = scan mark next text :=
  (scan_continue text continued).trans Option.map_id'

/-- A token ends before a character that it does not go on with. -/
theorem scan_pending {lexer : Lexer} {tokens : List Token} (ended : pending lexer = some tokens)
    {text : List Char} (ends : ∀ c ∈ text.head?, continue? mark c lexer = none) :
    scan mark lexer text = (scan mark idle text).map (tokens ++ ·) := by
  cases text with
  | nil =>
      rw [scan, scan, ended]
      exact congrArg some (List.append_nil tokens).symm
  | cons c text =>
      rw [scan, step, ends c rfl, ended, scan, step_idle]
      cases start mark c with
      | none => rfl
      | some started =>
          obtain ⟨first, next⟩ := started
          simp [Option.map_map, Function.comp_def, List.append_assoc]

/-- No token goes on with a separator. -/
theorem continue?_separated (isMark : IsMark mark) {lexer : Lexer} {tokens : List Token}
    (ended : pending lexer = some tokens) {rest : List Char} (separated : Separated rest) :
    ∀ c ∈ rest.head?, continue? mark c lexer = none := by
  intro c first
  rcases isMark with rfl | rfl <;> rcases separated c first with rfl | rfl | rfl <;>
    cases lexer <;> first | rfl | cases ended

theorem scan_separated (isMark : IsMark mark) {lexer : Lexer} {tokens : List Token}
    (ended : pending lexer = some tokens) {rest : List Char} (separated : Separated rest) :
    scan mark lexer rest = (scan mark idle rest).map (tokens ++ ·) :=
  scan_pending ended (continue?_separated isMark ended separated)

end Lexer

open Lexer

/-- A text whose tokens come first in every text that goes on with a separator. -/
def Lexes (mark : Char) (text : List Char) (tokens : List Token) : Prop :=
  ∀ rest, Separated rest →
    scan mark idle (text ++ rest) = (scan mark idle rest).map (tokens ++ ·)

namespace Lexes

variable {mark : Char} {text later : List Char} {tokens more : List Token}

theorem scan_eq (lexes : Lexes mark text tokens) : scan mark idle text = some tokens := by
  have whole := lexes [] fun _ first => by cases first
  rw [List.append_nil] at whole
  rw [whole, scan, pending, Option.map_some, List.append_nil]

/-- Behind a separator the rest of a text is read on its own. -/
theorem append (first : Lexes mark text tokens) {c : Char} {own : List Token}
    (separator : Separated [c]) (started : start mark c = some (own, idle))
    (second : Lexes mark later more) :
    Lexes mark (text ++ c :: later) (tokens ++ own ++ more) := by
  intro rest separated
  rw [List.append_assoc, first, List.cons_append, scan_start _ started, second rest separated]
  · simp [Option.map_map, Function.comp_def, List.append_assoc]
  · intro c' head
    exact separator c' head

/-- Two texts with a blank between them. -/
theorem spaced (isMark : IsMark mark) (first : Lexes mark text tokens)
    (second : Lexes mark later more) : Lexes mark (text ++ ' ' :: later) (tokens ++ more) := by
  have started : start mark ' ' = some ([], idle) := by
    rcases isMark with rfl | rfl <;> rfl
  have whole := first.append (c := ' ') (by simp [Separated]) started second
  rwa [List.append_nil] at whole

theorem nil : Lexes mark [] [] := by
  intro rest _
  exact (Option.map_id' (x := scan mark idle rest)).symm

/-- A text in brackets. -/
theorem bracketed (isMark : IsMark mark) (inner : Lexes mark text tokens) :
    Lexes mark ('(' :: (text ++ [')'])) (.opening :: (tokens ++ [.closing])) := by
  have opening : start mark '(' = some ([.opening], idle) := by
    rcases isMark with rfl | rfl <;> rfl
  have closing : start mark ')' = some ([.closing], idle) := by
    rcases isMark with rfl | rfl <;> rfl
  intro rest separated
  have whole := inner.append (c := ')') (by simp [Separated]) closing nil
  rw [List.cons_append, scan_start _ opening, whole rest separated]
  simp [Option.map_map, Function.comp_def]

/-- A sign before a text that does not begin with another one. -/
theorem minus (isMark : IsMark mark) {c : Char} (single : c ≠ '-')
    (lexes : Lexes mark (c :: text) tokens) :
    Lexes mark ('-' :: c :: text) (.minus :: tokens) := by
  have started : start mark '-' = some ([], .minus) := by
    rcases isMark with rfl | rfl <;> rfl
  have ended : pending .minus = some [.minus] := rfl
  intro rest separated
  rw [List.cons_append, scan_start _ started, scan_pending ended, lexes rest separated]
  · simp [Option.map_map, Function.comp_def]
  · intro c' head
    obtain rfl : c = c' := by simpa using head
    rw [continue?, if_neg single]

/-- A single character that is a token. -/
theorem symbol {c : Char} (started : start mark c = some (tokens, idle)) :
    Lexes mark [c] tokens :=
  fun _ _ => scan_start _ started

/-- A text that leaves the lexer at the end of a token. -/
theorem of_scan (isMark : IsMark mark) (lexer : Lexer)
    (scanned : ∀ rest, scan mark idle (text ++ rest) = scan mark lexer rest)
    (ended : pending lexer = some tokens) : Lexes mark text tokens :=
  fun rest separated => (scanned rest).trans (scan_separated isMark ended separated)

theorem scan_word {letters : List Char} (upper : letters.all Char.isUpper = true)
    (before rest : List Char) :
    scan mark (.word before) (letters ++ rest) = scan mark (.word (before ++ letters)) rest := by
  induction letters generalizing before with
  | nil => rw [List.nil_append, List.append_nil]
  | cons c letters ih =>
      rw [List.all_cons, Bool.and_eq_true] at upper
      have continued : continue? mark c (.word before) = some ([], .word (before ++ [c])) :=
        if_pos upper.1
      rw [List.cons_append, scan_continue_silently _ continued, ih upper.2, List.append_assoc]
      rfl

theorem isUpper_of_keyword? {letters : List Char} {token : Token}
    (known : keyword? letters = some token) : letters.all Char.isUpper = true := by
  unfold keyword? at known
  split at known <;> first | rfl | cases known

theorem start_upper (isMark : IsMark mark) {c : Char} (upper : c.isUpper = true) :
    start mark c = some ([], .word [c]) := by
  have unmarked : c ≠ mark := by
    rintro rfl
    rcases isMark with rfl | rfl <;> cases upper
  have noDigit : ¬ isDigit c = true := by
    intro digit
    simp only [isDigit, Bool.and_eq_true, decide_eq_true_eq] at digit
    have letter : 65 ≤ c.toNat := by
      have bounds := of_decide_eq_true upper
      exact UInt32.le_iff_toNat_le.1 bounds.1
    omega
  unfold start
  rw [if_neg unmarked, if_neg noDigit, if_pos upper]

theorem keyword (isMark : IsMark mark) {letters : List Char} {token : Token}
    (known : keyword? letters = some token) : Lexes mark letters [token] := by
  have upper := isUpper_of_keyword? known
  cases letters with
  | nil => cases known
  | cons c letters =>
      rw [List.all_cons, Bool.and_eq_true] at upper
      have ended : pending (.word (c :: letters)) = some [token] := by
        rw [pending, known, Option.map_some]
      refine of_scan isMark (.word (c :: letters)) (fun rest => ?_) ended
      rw [List.cons_append, scan_start_silently _ (start_upper isMark upper.1), scan_word upper.2]
      rfl

theorem scan_digits {digits : List Char} (each : ∀ c ∈ digits, isDigit c = true) (value : Nat)
    (rest : List Char) :
    scan mark (.number value) (digits ++ rest) =
      scan mark (.number (digitsValueFrom value digits)) rest := by
  induction digits generalizing value with
  | nil => rfl
  | cons c digits ih =>
      have continued : continue? mark c (.number value) =
          some ([], .number (value * 10 + digitOf c)) :=
        if_pos (each c (by simp))
      rw [List.cons_append, scan_continue_silently _ continued, ih fun c' member => each c' (by simp [member])]
      rfl

/-- A natural number. -/
theorem number (isMark : IsMark mark) (n : Nat) : Lexes mark (digits n) [.number n] := by
  have each := isDigit_of_mem_digits n
  cases written : digits n with
  | nil => exact absurd written (digits_ne_nil n)
  | cons c more =>
      rw [written] at each
      have cDigit := each c (by simp)
      have unmarked : c ≠ mark := by
        rintro rfl
        rcases isMark with rfl | rfl <;> cases cDigit
      have started : start mark c = some ([], .number (digitOf c)) := by
        unfold start
        rw [if_neg unmarked, if_pos cDigit]
      refine of_scan isMark (.number n) (fun rest => ?_) rfl
      rw [List.cons_append, scan_start_silently _ started,
        scan_digits fun c' member => each c' (by simp [member])]
      have value : digitsValueFrom (digitOf c) more = n := by
        have whole := digitsValue_digits n
        rw [written] at whole
        simpa [digitsValue, digitsValueFrom] using whole
      rw [value]

theorem continue?_quoted (path : List String) (before : List Char) {c : Char} (other : c ≠ mark) :
    continue? mark c (.quoted path before) = some ([], .quoted path (before ++ [c])) :=
  if_neg other

theorem continue?_mark (path : List String) (before : List Char) :
    continue? mark mark (.quoted path before) = some ([], .closed path before) :=
  if_pos rfl

theorem continue?_doubled (path : List String) (before : List Char) :
    continue? mark mark (.closed path before) = some ([], .quoted path (before ++ [mark])) :=
  if_pos rfl

/-- The inside of a name, up to the closing mark. -/
theorem scan_quoted (path : List String) (before name rest : List Char) :
    scan mark (.quoted path before)
        (Text.replaceChar mark [mark, mark] name ++ mark :: rest) =
      scan mark (.closed path (before ++ name)) rest := by
  induction name generalizing before with
  | nil =>
      rw [Text.replaceChar, List.flatMap_nil, List.nil_append, List.append_nil]
      exact scan_continue_silently _ (continue?_mark path before)
  | cons c name ih =>
      have unfolded : Text.replaceChar mark [mark, mark] (c :: name) =
          (if c = mark then [mark, mark] else [c]) ++ Text.replaceChar mark [mark, mark] name := by
        rw [Text.replaceChar, List.flatMap_cons]
        rfl
      have whole := ih (before ++ [c])
      rw [List.append_assoc, List.singleton_append] at whole
      rw [unfolded, List.append_assoc, ← whole]
      split
      · rename_i same
        subst same
        refine (scan_continue_silently _ (continue?_mark path before)).trans ?_
        exact scan_continue_silently _ (continue?_doubled path before)
      · rename_i other
        exact scan_continue_silently _ (continue?_quoted path before other)

theorem toList_enclose (mark : Char) (name : String) (rest : List Char) :
    (enclose mark name).toList ++ rest =
      mark :: (Text.replaceChar mark [mark, mark] name.toList ++ mark :: rest) := by
  simp [enclose]

/-- A name. -/
theorem name (isMark : IsMark mark) (name : String) :
    Lexes mark (enclose mark name).toList [.name [name]] := by
  have started : start mark mark = some ([], .quoted [] []) := if_pos rfl
  refine of_scan isMark (.closed [] name.toList) (fun rest => ?_) (by simp [pending])
  rw [toList_enclose, scan_start_silently _ started, scan_quoted, List.nil_append]

/-- A name that is qualified by another one. -/
theorem qualified (isMark : IsMark mark) (label name : String) :
    Lexes mark ((enclose mark label).toList ++ '.' :: (enclose mark name).toList)
      [.name [label, name]] := by
  have started : start mark mark = some ([], .quoted [] []) := if_pos rfl
  have dot : continue? mark '.' (.closed [] label.toList) = some ([], .dotted [label]) := by
    rcases isMark with rfl | rfl <;> simp [continue?, Dialect.backquote]
  have reopened : continue? mark mark (.dotted [label]) = some ([], .quoted [label] []) :=
    if_pos rfl
  refine of_scan isMark (.closed [label] name.toList) (fun rest => ?_) (by simp [pending])
  rw [List.append_assoc, toList_enclose, scan_start_silently _ started, scan_quoted,
    List.nil_append, List.cons_append, scan_continue_silently _ dot, toList_enclose,
    scan_continue_silently _ reopened, scan_quoted, List.nil_append]

/-- A comparison operator. -/
theorem comparison (isMark : IsMark mark) (op : Comparison) :
    Lexes mark op.sql.toList [.compare op] := by
  have less : start mark '<' = some ([], .less) := by
    rcases isMark with rfl | rfl <;> rfl
  have greater : start mark '>' = some ([], .greater) := by
    rcases isMark with rfl | rfl <;> rfl
  have equals : start mark '=' = some ([.compare .eq], idle) := by
    rcases isMark with rfl | rfl <;> rfl
  cases op with
  | eq => exact symbol equals
  | lt => exact of_scan isMark .less (fun rest => scan_start_silently rest less) rfl
  | gt => exact of_scan isMark .greater (fun rest => scan_start_silently rest greater) rfl
  | ne => exact fun rest _ => (scan_start_silently _ less).trans (scan_continue _ rfl)
  | le => exact fun rest _ => (scan_start_silently _ less).trans (scan_continue _ rfl)
  | ge => exact fun rest _ => (scan_start_silently _ greater).trans (scan_continue _ rfl)

end Lexes

end RowQuery.Sql
