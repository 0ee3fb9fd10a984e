import SdlTypes.Text.Basic

/-!
# Lines

`unifyBreaks` is how text files are read: each way of ending a line becomes a line feed.
`lineCount` counts lines as a reader of the text sees them, which takes every line and paragraph
separator of Unicode for a line break.
-/

namespace SdlTypes.Text

/-- Turns carriage returns, with or without a line feed after them, into line feeds. -/
def unifyBreaks : List Char → List Char
  | [] => []
  | '\r' :: '\n' :: rest => '\n' :: unifyBreaks rest
  | c :: rest => (if c = '\r' then '\n' else c) :: unifyBreaks rest

/-- The text of a file as it is read. -/
def ofFile (s : String) : String :=
  String.ofList (unifyBreaks s.toList)

/-- The characters that end a line by themselves. -/
def isLineBreak (c : Char) : Bool :=
  let n := c.toNat
  (10 ≤ n && n ≤ 13) || (28 ≤ n && n ≤ 30) || n == 0x85 || n == 0x2028 || n == 0x2029

/-- The number of lines, where `started` tells that a line without an end has begun. -/
def countLines (started : Bool) : List Char → Nat
  | [] => if started then 1 else 0
  | '\r' :: '\n' :: rest => countLines false rest + 1
  | c :: rest => if isLineBreak c then countLines false rest + 1 else countLines true rest

/-- The number of lines of a text; a break at the end begins no further line. -/
def lineCount (s : String) : Nat :=
  countLines false s.toList

end SdlTypes.Text
