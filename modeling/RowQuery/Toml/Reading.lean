import RowQuery.Toml
import RowQuery.Toml.Scalar

/-!
# Reading TOML documents

How headers and dotted keys make up the tree of tables.  No table has two headers,
no key has two values, and what is written as a value is complete.  Arrays and
tables written as values may be nested 79 deep, and a dotted key has at most 79
parts.
-/

namespace RowQuery.Toml

/-! ## Sections -/

/-- The members of a table in the order of their first mention, except that a header
moves its table behind the others. -/
abbrev Members := List (String × Toml)

def updateMember (key : String) (change : Option Toml → Option Toml) :
    Members → Option Members
  | [] => (change none).map fun value => [(key, value)]
  | (k, value) :: rest =>
      if k = key then (change (some value)).map fun value => (k, value) :: rest
      else (updateMember key change rest).map fun rest => (k, value) :: rest

/-- Change the last of some tables. -/
def updateLast (change : TableOrigin → Members → Option Members) :
    List Toml → Option (List Toml)
  | [] => none
  | [.table origin members] =>
      (change origin members).map fun members => [.table origin members]
  | [_] => none
  | item :: items => (updateLast change items).map fun items => item :: items

/-- A key may lead into a table.  Dotted keys do not lead into tables with a
header. -/
def mayEnter (viaDots : Bool) (origin : TableOrigin) : Bool :=
  match origin with
  | .inline => false
  | .header => !viaDots
  | .implied | .dotted => true

/-- Change the table at the end of a path, making the tables on the way. -/
def within (viaDots : Bool) (change : TableOrigin → Members → Option Members) :
    List String → TableOrigin → Members → Option Members
  | [], origin, members => change origin members
  | key :: path, _, members =>
      let inside := within viaDots change path
      updateMember key (fun found =>
        match found with
        | none =>
            let origin : TableOrigin := if viaDots then .dotted else .implied
            (inside origin []).map fun members => .table origin members
        | some (.table origin members) =>
            if mayEnter viaDots origin then
              (inside origin members).map fun members => .table origin members
            else none
        | some (.tables items) => (updateLast inside items).map .tables
        | some _ => none) members

/-- Put a value under a key that has none. -/
def addMember (key : String) (value : Toml) : Members → Option Members :=
  updateMember key fun found => if found.isSome then none else some value

/-- Put a value under a dotted key.  A table made by dotted keys takes in no plain
ones, and the other way round. -/
def addDotted (path : List String) (key : String) (value : Toml) (origin : TableOrigin)
    (members : Members) : Option Members :=
  within true (fun origin members =>
    if (origin = .dotted) == path.isEmpty then none else addMember key value members)
    path origin members

/-- A key in its parts. -/
abbrev Path := List String

/-- The parts of a key before the last one, and the last one. -/
def splitPath (path : Path) : Path × String :=
  (path.dropLast, path.getLast?.getD "")

/-- A table written as a value. -/
def ofPairs? (pairs : List (Path × Toml)) : Option Toml :=
  (pairs.foldlM (fun members (path, value) =>
    addDotted (splitPath path).1 (splitPath path).2 value .inline members) []).map
      fun members => .table .inline members

/-- A line of a document. -/
inductive Line where
  | pair (path : Path) (value : Toml)
  | header (path : Path)
  | tablesHeader (path : Path)

/-- Open the table of a header, which becomes the last member. -/
def openTable (key : String) (members : Members) : Option Members :=
  match members.find? fun member => member.1 = key with
  | none => some (members ++ [(key, .table .header [])])
  | some (_, .table .implied inside) =>
      some ((members.filter fun member => member.1 ≠ key) ++ [(key, .table .header inside)])
  | some _ => none

/-- Open one more of the tables of a header. -/
def openTables (key : String) : Members → Option Members :=
  updateMember key fun found =>
    match found with
    | none => some (.tables [.table .header []])
    | some (.tables items) => some (.tables (items ++ [.table .header []]))
    | some _ => none

/-- Put the lines together, the first of them under the header `current`. -/
def ofLines? (current : Path) (members : Members) : List Line → Option Members
  | [] => some members
  | .pair path value :: lines => do
      let (path, key) := splitPath path
      let members ← within false (addDotted path key value) current .header members
      ofLines? current members lines
  | .header path :: lines => do
      let (parents, key) := splitPath path
      let members ← within false (fun _ => openTable key) parents .header members
      ofLines? path members lines
  | .tablesHeader path :: lines => do
      let (parents, key) := splitPath path
      let members ← within false (fun _ => openTables key) parents .header members
      ofLines? path members lines

/-! ## Documents -/

/-- The number of parts of a key, and of nested values, stays below this. -/
def nestingLimit : Nat := 80

/-- The mark that opens a table written as a value. -/
def openBrace : Char := Char.ofNat 123

/-- The mark that closes a table written as a value. -/
def closeBrace : Char := Char.ofNat 125

/-- Skip blanks inside a line. -/
def skipSpace (text : List Char) : List Char :=
  text.dropWhile isSpace

/-- Skip a comment up to the end of its line. -/
def skipComment? : List Char → Option (List Char)
  | '#' :: rest =>
      let rest := rest.dropWhile isPlain
      if rest.isEmpty || (newline? rest).isSome then some rest else none
  | text => some text

/-- Skip the rest of a line, which holds nothing but a comment. -/
def endLine? (text : List Char) : Option (List Char) := do
  let rest ← skipComment? (skipSpace text)
  if rest.isEmpty then some [] else newline? rest

/-- Skip blanks, comments and ends of lines. -/
def skipBlankLines : Nat → List Char → List Char
  | 0, text => text
  | fuel + 1, text =>
      let rest := skipSpace text
      match endLine? rest with
      | some next => if rest.isEmpty then rest else skipBlankLines fuel next
      | none => rest

/-- A character of a key without quotation marks. -/
def isBare (c : Char) : Bool :=
  c.isAlphanum || c == '_' || c == '-'

def readKeyPart? (text : List Char) : Option (String × List Char) :=
  let bare := text.takeWhile isBare
  if bare.isEmpty then readQuoted? text
  else some (String.ofList bare, text.dropWhile isBare)

/-- Read a key of several parts with points between. -/
def readParts? : Nat → List Char → Option (Path × List Char)
  | 0, _ => none
  | fuel + 1, text => do
      let (part, rest) ← readKeyPart? (skipSpace text)
      match skipSpace rest with
      | '.' :: rest => do
          let (parts, rest) ← readParts? fuel rest
          return (part :: parts, rest)
      | rest => return ([part], rest)

def readKey? (text : List Char) : Option (Path × List Char) :=
  readParts? (nestingLimit - 1) text

/-- Skip blanks, comments and ends of lines inside an array. -/
def skipInside (text : List Char) : List Char :=
  skipBlankLines text.length text

/-- Read the key of a pair and its equality sign. -/
def readPairKey? (text : List Char) : Option (Path × List Char) := do
  let (path, rest) ← readKey? text
  let rest ← readChar? '=' rest
  return (path, skipSpace rest)

/-- Read a value without parts. -/
def readScalar? (text : List Char) : Option (Toml × List Char) :=
  match text with
  | '"' :: _ | '\'' :: _ => (readString? text).map fun (value, rest) => (string value, rest)
  | 't' :: 'r' :: 'u' :: 'e' :: rest => some (boolean true, rest)
  | 'f' :: 'a' :: 'l' :: 's' :: 'e' :: rest => some (boolean false, rest)
  | _ =>
      match readStamp? text with
      | some (value, rest) => some (stamp value, rest)
      | none => readNumber? text

mutual

/-- Read a value.  `depth` is how deep arrays and tables may still nest. -/
def readValue? (depth : Nat) : Nat → List Char → Option (Toml × List Char)
  | 0, _ => none
  | fuel + 1, text =>
      match text with
      | '[' :: rest =>
          if depth = 0 then none
          else
            (readItems? (depth - 1) fuel (skipInside rest)).map fun (items, rest) =>
              (array items, rest)
      | c :: rest =>
          if c = openBrace then
            if depth = 0 then none
            else
              match skipSpace rest with
              | c :: after =>
                  if c = closeBrace then some (table .inline [], after)
                  else do
                    let (pairs, rest) ← readPairs? (depth - 1) fuel (c :: after)
                    let value ← ofPairs? pairs
                    return (value, rest)
              | [] => none
          else readScalar? text
      | [] => none

/-- Read the items of an array up to its end. -/
def readItems? (depth : Nat) : Nat → List Char → Option (List Toml × List Char)
  | 0, _ => none
  | fuel + 1, text =>
      match text with
      | ']' :: rest => some ([], rest)
      | _ => do
          let (item, rest) ← readValue? depth fuel text
          match skipInside rest with
          | ',' :: rest =>
              let (items, rest) ← readItems? depth fuel (skipInside rest)
              return (item :: items, rest)
          | ']' :: rest => return ([item], rest)
          | _ => none

/-- Read the pairs of a table up to its end. -/
def readPairs? (depth : Nat) : Nat → List Char → Option (List (Path × Toml) × List Char)
  | 0, _ => none
  | fuel + 1, text => do
      let (path, rest) ← readPairKey? text
      let (value, rest) ← readValue? depth fuel rest
      match skipSpace rest with
      | ',' :: rest =>
          let (pairs, rest) ← readPairs? depth fuel (skipSpace rest)
          return ((path, value) :: pairs, rest)
      | c :: rest => if c = closeBrace then return ([(path, value)], rest) else none
      | [] => none

end

def readLine? (text : List Char) : Option (Line × List Char) :=
  match text with
  | '[' :: '[' :: rest => do
      let (path, rest) ← readKey? rest
      let rest ← readChar? ']' rest
      let rest ← readChar? ']' rest
      let rest ← endLine? rest
      return (.tablesHeader path, rest)
  | '[' :: rest => do
      let (path, rest) ← readKey? rest
      let rest ← readChar? ']' rest
      let rest ← endLine? rest
      return (.header path, rest)
  | _ => do
      let (path, rest) ← readPairKey? text
      let (value, rest) ← readValue? (nestingLimit - 1) (2 * rest.length + 2) rest
      let rest ← endLine? rest
      return (.pair path value, rest)

def readLines? : Nat → List Char → Option (List Line)
  | 0, _ => none
  | fuel + 1, text =>
      match skipInside text with
      | [] => some []
      | rest => do
          let (line, rest) ← readLine? rest
          let lines ← readLines? fuel rest
          return line :: lines

/-- The text without a byte order mark in front. -/
def withoutMark : List Char → List Char
  | c :: rest => if c.toNat = 0xFEFF then rest else c :: rest
  | [] => []

def read? (text : String) : Option Members := do
  let text := withoutMark text.toList
  let lines ← readLines? (text.length + 1) text
  ofLines? [] [] lines

end RowQuery.Toml
