import RowQuery.Text.CaseTable

/-!
# Letter case

Full case conversion of the Unicode standard.  Every character is converted on
its own, except that a capital sigma at the end of a word becomes the final
small sigma.
-/

namespace RowQuery.Text

open CaseTable

/-- The code point that the runs of a table assign to a code point. -/
def mapByRuns (runs : List (Nat × Nat × Nat × Int)) (point : Nat) : Nat :=
  match runs.find? fun (first, last, step, _) =>
      first ≤ point && point ≤ last && (point - first) % step == 0 with
  | some (_, _, _, delta) => ((point : Int) + delta).toNat
  | none => point

/-- A code point lies in one of the inclusive ranges. -/
def inRanges (ranges : List (Nat × Nat)) (point : Nat) : Bool :=
  ranges.any fun (first, last) => first ≤ point && point ≤ last

/-- Convert one character by the full mappings of a table, or by its runs. -/
def mapCase (full : List (Nat × List Nat)) (runs : List (Nat × Nat × Nat × Int))
    (c : Char) : List Char :=
  match full.lookup c.toNat with
  | some points => points.map Char.ofNat
  | none => [Char.ofNat (mapByRuns runs c.toNat)]

/-- The lower-case form of a character that does not depend on its context. -/
def lowerChar (c : Char) : List Char :=
  if c.toNat < 128 then [c.toLower] else mapCase lowerFull lowerRuns c

/-- The upper-case form of a character. -/
def upperChar (c : Char) : List Char :=
  if c.toNat < 128 then [c.toUpper] else mapCase upperFull upperRuns c

/-- The first character that is not skipped has a case. -/
def casedNext (text : List Char) : Bool :=
  match text.dropWhile fun c => inRanges ignorableRanges c.toNat with
  | [] => false
  | c :: _ => inRanges casedRanges c.toNat

/-- Lower case of a text that follows the characters `seen`, which are given in
reverse. -/
def lowerFrom (seen : List Char) : List Char → List Char
  | [] => []
  | c :: rest =>
      let here :=
        if c = 'Σ' then
          if casedNext seen && !casedNext rest then ['ς'] else ['σ']
        else lowerChar c
      here ++ lowerFrom (c :: seen) rest

def lower (text : String) : String :=
  String.ofList (lowerFrom [] text.toList)

def upper (text : String) : String :=
  String.ofList (text.toList.flatMap upperChar)

end RowQuery.Text
