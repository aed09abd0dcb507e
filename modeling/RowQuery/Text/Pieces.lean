/-!
# Pieces of a text

Searching, cutting and replacing in lists of characters; the white space of the
Unicode standard, trimming, and splitting a text into words.
-/

namespace RowQuery.Text

/-- What follows `front` in a text that starts with it. -/
def dropFront? : List Char → List Char → Option (List Char)
  | [], text => some text
  | _ :: _, [] => none
  | f :: front, c :: text => if f = c then dropFront? front text else none

/-- The text starts with `front`. -/
def startsWith (text front : List Char) : Bool :=
  front.isPrefixOf text

/-- The text ends with `back`. -/
def endsWith (text back : List Char) : Bool :=
  back.isSuffixOf text

/-- `piece` occurs somewhere in the text. -/
def contains (piece : List Char) : List Char → Bool
  | [] => piece.isEmpty
  | c :: text => piece.isPrefixOf (c :: text) || contains piece text

/-- Replace every occurrence of one character by a text. -/
def replaceChar (old : Char) (new : List Char) (text : List Char) : List Char :=
  text.flatMap fun c => if c = old then new else [c]

/-- The parts of a text between the separators.  There is always one part more
than there are separators. -/
def splitAll (separator : Char) : List Char → List (List Char)
  | [] => [[]]
  | c :: rest =>
      if c = separator then [] :: splitAll separator rest
      else
        match splitAll separator rest with
        | [] => [[c]]
        | part :: parts => (c :: part) :: parts

/-- The text up to the first character that satisfies a test, and what follows
that character. -/
def cutAt? (test : Char → Bool) : List Char → Option (List Char × List Char)
  | [] => none
  | c :: rest =>
      if test c then some ([], rest)
      else (cutAt? test rest).map fun (before, after) => (c :: before, after)

/-- The text before the first occurrence of `piece`, or all of it. -/
def before (piece : List Char) : List Char → List Char
  | [] => []
  | c :: text =>
      if piece.isPrefixOf (c :: text) then [] else c :: before piece text

/-- A text with its ASCII letters in lower case. -/
def asciiLower (text : String) : String :=
  String.ofList (text.toList.map Char.toLower)

/-- A text with its ASCII letters in upper case. -/
def asciiUpper (text : String) : String :=
  String.ofList (text.toList.map Char.toUpper)

/-- Equality up to the case of ASCII letters. -/
def sameIgnoringCase (a b : String) : Bool :=
  a.toList.map Char.toLower == b.toList.map Char.toLower

/-- Join texts with a separator between neighbours. -/
def join (separator : String) : List String → String
  | [] => ""
  | [text] => text
  | text :: texts => text ++ separator ++ join separator texts

/-- Enclose a text in round brackets. -/
def bracketed (text : String) : String :=
  "(" ++ text ++ ")"

/-- The number of characters of a string, encoded as UTF-8. -/
def byteLength (text : String) : Nat :=
  text.utf8ByteSize

theorem splitAll_ne_nil (separator : Char) (text : List Char) :
    splitAll separator text ≠ [] := by
  cases text with
  | nil => simp [splitAll]
  | cons c rest =>
      simp only [splitAll]
      split
      · simp
      · split <;> simp

/-! ## Blanks -/

/-- White space in the sense of the Unicode property of that name. -/
def isBlank (c : Char) : Bool :=
  let n := c.toNat
  (9 ≤ n && n ≤ 13) || n == 32 || n == 0x85 || n == 0xA0 || n == 0x1680 ||
    (0x2000 ≤ n && n ≤ 0x200A) || n == 0x2028 || n == 0x2029 || n == 0x202F ||
    n == 0x205F || n == 0x3000

/-- Drop leading characters that satisfy a test, then trailing ones. -/
def stripWhile (test : Char → Bool) (text : List Char) : List Char :=
  ((text.dropWhile test).reverse.dropWhile test).reverse

/-- A text without leading and trailing blanks. -/
def trimChars (text : List Char) : List Char :=
  stripWhile isBlank text

/-- A string without leading and trailing blanks. -/
def trim (text : String) : String :=
  String.ofList (trimChars text.toList)

/-- Drop trailing characters that satisfy a test. -/
def dropEndWhile (test : Char → Bool) (text : List Char) : List Char :=
  (text.reverse.dropWhile test).reverse

/-- The maximal runs of characters that fail a test, in order.  `current` is
the run being collected, reversed. -/
def splitRuns (test : Char → Bool) : List Char → List Char → List (List Char)
  | [], current => if current.isEmpty then [] else [current.reverse]
  | c :: rest, current =>
      if test c then
        if current.isEmpty then splitRuns test rest []
        else current.reverse :: splitRuns test rest []
      else splitRuns test rest (c :: current)

/-- The words of a text: its maximal runs without blanks. -/
def words (text : List Char) : List (List Char) :=
  splitRuns isBlank text []

theorem isBlank_of_isWhitespace {c : Char} (white : c.isWhitespace = true) :
    isBlank c = true := by
  simp only [Char.isWhitespace, Bool.or_eq_true, decide_eq_true_eq] at white
  rcases white with ((rfl | rfl) | rfl) | rfl <;> decide

end RowQuery.Text
