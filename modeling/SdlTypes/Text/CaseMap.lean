import SdlTypes.Text.Basic
import SdlTypes.Text.CaseMap.Table

/-!
# Upper and lower case

`upper` and `lower` are the full case mappings of Unicode: one character may become several
(`ß` becomes `SS`), and a capital sigma at the end of a word becomes `ς`. On ASCII they change
the 26 letters and nothing else.
-/

namespace SdlTypes.Text

/-- The image of a code point under the first run it belongs to. -/
def shiftByRun (runs : List (Nat × Nat × Nat × Int)) (n : Nat) : Option Nat :=
  runs.findSome? fun (first, last, step, shift) =>
    if first ≤ n ∧ n ≤ last ∧ (n - first) % step = 0 then some ((n : Int) + shift).toNat else none

/-- The image of a character outside ASCII; a character in neither table is its own image. -/
def caseImage (runs : List (Nat × Nat × Nat × Int)) (expansions : List (Nat × List Nat))
    (c : Char) : List Char :=
  match shiftByRun runs c.toNat with
  | some n => [Char.ofNat n]
  | none =>
    match expansions.lookup c.toNat with
    | some ns => ns.map Char.ofNat
    | none => [c]

/-- The upper-case image of a character. -/
def upperChar (c : Char) : List Char :=
  if c.toNat < 128 then [c.toUpper] else caseImage upperRuns upperExpansions c

/-- The lower-case image of a character regardless of its neighbours. -/
def lowerChar (c : Char) : List Char :=
  if c.toNat < 128 then [c.toLower] else caseImage lowerRuns lowerExpansions c

/-- Whether a code point lies in one of the ranges. -/
def inRanges (ranges : List (Nat × Nat)) (c : Char) : Bool :=
  ranges.any fun (first, last) => first ≤ c.toNat && c.toNat ≤ last

/-- Whether the nearest character that counts is cased. -/
def nextIsCased (s : List Char) : Bool :=
  match s.dropWhile (inRanges ignorableRanges) with
  | [] => false
  | c :: _ => inRanges casedRanges c

/-- Lower case of the second list, which follows the first one (given last character first). A
sigma is final when a cased character stands before it and none after it. -/
def lowerChars (before : List Char) : List Char → List Char
  | [] => []
  | c :: rest =>
    (if c.toNat = 0x3A3 then
      [Char.ofNat (if nextIsCased before && !nextIsCased rest then 0x3C2 else 0x3C3)]
    else lowerChar c) ++ lowerChars (c :: before) rest

/-- The text in upper case. -/
def upper (s : String) : String :=
  String.ofList (s.toList.flatMap upperChar)

/-- The text in lower case. -/
def lower (s : String) : String :=
  String.ofList (lowerChars [] s.toList)

end SdlTypes.Text
