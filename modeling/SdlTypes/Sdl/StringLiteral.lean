import SdlTypes.Text.Hexadecimal

/-!
# String literals

The two forms of strings in documents. `readQuoted` reads the rest of a string between single
quote characters, with its escapes. `readBlock` reads the rest of a block string, and
`dedent` gives it its value: the indentation that all lines but the first have in common is
removed, and so are blank lines at either end.
-/

namespace SdlTypes.Sdl.StringLiteral

/-- The character that a backslash and a letter stand for. -/
def simpleEscape? (c : Char) : Option Char :=
  match c with
  | '"' => some '"'
  | '\\' => some '\\'
  | '/' => some '/'
  | 'b' => some '\x08'
  | 'f' => some '\x0c'
  | 'n' => some '\n'
  | 'r' => some '\r'
  | 't' => some '\t'
  | _ => none

/-- The code point of an escape `\u{…}` with one to eight hexadecimal digits. -/
def braced? (digits : List Char) : Option Nat :=
  match Text.hexValue? digits with
  | some n => if 1 ≤ digits.length ∧ digits.length ≤ 8 ∧ Text.isScalar n then some n else none
  | none => none

/-- Whether a character is a hexadecimal digit. -/
def isHexDigit (c : Char) : Bool :=
  (Text.hexDigit? c).isSome

/-- Reads the rest of a string up to and with its closing quote. A line may not end inside.
What an escape stands for is put into the marked form. -/
def readQuoted (s : List Char) : Option (List Char × List Char) :=
  match s with
  | [] => none
  | '"' :: rest => some ([], rest)
  | '\\' :: 'u' :: '{' :: rest =>
    match braced? (rest.takeWhile isHexDigit), rest.dropWhile isHexDigit with
    | some n, '}' :: left =>
      if left.length ≤ rest.length then
        (readQuoted left).map fun (t, behind) => (Text.written n ++ t, behind)
      else none
    | _, _ => none
  | '\\' :: 'u' :: a :: b :: c :: d :: rest =>
    match Text.hexValue? [a, b, c, d] with
    | none => none
    | some n =>
      if Text.isScalar n then
        (readQuoted rest).map fun (t, behind) => (Text.written n ++ t, behind)
      else if Text.isHighSurrogate n then
        match Text.lowSurrogate? rest with
        | some low =>
          (readQuoted (rest.drop 6)).map fun (t, behind) =>
            (Text.written (Text.joinSurrogates n low) ++ t, behind)
        | none => none
      else none
  | '\\' :: c :: rest =>
    match simpleEscape? c with
    | none => none
    | some e => (readQuoted rest).map fun (t, behind) => (e :: t, behind)
  | c :: rest =>
    if c = '\n' ∨ c = '\r' then none
    else (readQuoted rest).map fun (t, behind) => (c :: t, behind)
termination_by s.length
decreasing_by all_goals simp +arith [List.length_drop]; try omega

theorem length_readQuoted {s t left : List Char} (h : readQuoted s = some (t, left)) :
    left.length < s.length := by
  fun_induction readQuoted s generalizing t left <;>
    grind [Option.map_eq_some_iff, List.length_drop]

/-- Reads the rest of a block string up to and with its closing quotes. Its lines are left as
they are but for their ends, which become line feeds. -/
def readBlock : List Char → Option (List Char × List Char)
  | [] => none
  | '"' :: '"' :: '"' :: rest => some ([], rest)
  | '\\' :: '"' :: '"' :: '"' :: rest =>
    (readBlock rest).map fun (t, behind) => ('"' :: '"' :: '"' :: t, behind)
  | '\r' :: '\n' :: rest => (readBlock rest).map fun (t, behind) => ('\n' :: t, behind)
  | c :: rest =>
    (readBlock rest).map fun (t, behind) => ((if c = '\r' then '\n' else c) :: t, behind)

theorem length_readBlock {s t left : List Char} (h : readBlock s = some (t, left)) :
    left.length < s.length := by
  fun_induction readBlock s generalizing t left <;> grind [Option.map_eq_some_iff]

/-- The blanks that count as indentation. -/
def isIndent (c : Char) : Bool :=
  c = ' ' || c = '\t'

/-- Whether a line holds nothing but indentation. -/
def isBlankLine (line : List Char) : Bool :=
  line.all isIndent

/-- The depth of the indentation that all lines that are not blank have in common. -/
def commonIndent (lines : List (List Char)) : Nat :=
  (((lines.filter fun line => !isBlankLine line).map fun line =>
    (line.takeWhile isIndent).length).min?).getD 0

/-- The lines without blank ones at either end. -/
def trimBlankLines (lines : List (List Char)) : List (List Char) :=
  ((lines.dropWhile isBlankLine).reverse.dropWhile isBlankLine).reverse

/-- The value of a block string from what stands between its quotes. -/
def dedent (raw : List Char) : List Char :=
  match raw.splitOn '\n' with
  | [] => []
  | first :: others =>
    let depth := commonIndent others
    ['\n'].intercalate (trimBlankLines (first :: others.map (List.drop depth)))

end SdlTypes.Sdl.StringLiteral
