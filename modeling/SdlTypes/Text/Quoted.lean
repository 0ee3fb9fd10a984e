import SdlTypes.Text.Basic
import SdlTypes.Text.Printable
import SdlTypes.Text.Surrogate

/-!
# Quoted text

`quoted` writes a text as a literal between single quotes: a backslash goes before every
backslash and every quote of the text, and nothing else changes. `readQuoted` is the reader of
such literals.

`inspected` is the form in which messages show a text: it chooses the quote that needs no
escape and spells out every character that cannot be shown as itself.
-/

namespace SdlTypes.Text

/-- Puts a backslash before every occurrence of `mark`. -/
def escape (mark : Char) (s : List Char) : List Char :=
  s.flatMap fun c => if c = mark then ['\\', c] else [c]

/-- The text as a literal between single quotes. -/
def quoted (s : String) : String :=
  "'" ++ String.ofList (escape '\'' (escape '\\' s.toList)) ++ "'"

/-- Reads what follows an opening quote: a backslash makes the next character stand for
itself, the first quote without one ends the literal, and the rest is left over. -/
def readQuoted : List Char → Option (List Char × List Char)
  | [] => none
  | '\'' :: rest => some ([], rest)
  | ['\\'] => none
  | '\\' :: c :: rest => (readQuoted rest).map fun (s, left) => (c :: s, left)
  | c :: rest => (readQuoted rest).map fun (s, left) => (c :: s, left)

/-- A number in hexadecimal with at least `width` digits. -/
def hex (width n : Nat) : List Char :=
  let digits := Nat.toDigits 16 n
  List.replicate (width - digits.length) '0' ++ digits

/-- How a code point is shown between quotes of the given form. -/
def inspectPoint (quote : Char) (n : Nat) : List Char :=
  let c := Char.ofNat n
  if c = quote ∨ c = '\\' then ['\\', c]
  else if c = '\n' then ['\\', 'n']
  else if c = '\r' then ['\\', 'r']
  else if c = '\t' then ['\\', 't']
  else if isPrintable c then [c]
  else if n < 0x100 then '\\' :: 'x' :: hex 2 n
  else if n < 0x10000 then '\\' :: 'u' :: hex 4 n
  else '\\' :: 'U' :: hex 8 n

/-- The text as messages show it: between single quotes, or between double ones if it holds a
single quote and no double one. -/
def inspected (s : String) : String :=
  let quote := if s.toList.contains '\'' && !s.toList.contains '"' then '"' else '\''
  String.ofList (quote :: (codePoints s.toList).flatMap (inspectPoint quote) ++ [quote])

end SdlTypes.Text
