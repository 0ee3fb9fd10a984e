import SdlTypes.Text.Basic
import SdlTypes.Text.CaseMap

/-!
# Words of a name

A name is a sequence of words, marked off by underscores or by capitals. `snakeCase` makes all
marks underscores: `breakBeforeWords` puts one before each capital that lower-case letters
follow, `breakBeforeCapitals` one between a small letter or digit and a capital. Both work on
ASCII letters and go from left to right without looking back at what they have used.

The other spellings start from there. `pascalCase` capitalises the words and leaves the
underscores out, `camelCase` begins that with a small letter, and `constantCase` is all
capitals.
-/

namespace SdlTypes.Naming

/-- Puts an underscore before each capital that lower-case letters follow, if any character
but a line feed stands before it. That character, the capital and the letters are then used
up. -/
def breakBeforeWords (s : List Char) : List Char :=
  match s with
  | c :: u :: l :: rest =>
    if c ≠ '\n' ∧ u.isUpper ∧ l.isLower then
      c :: '_' :: u :: l :: rest.takeWhile Char.isLower ++
        breakBeforeWords (rest.dropWhile Char.isLower)
    else c :: breakBeforeWords (u :: l :: rest)
  | short => short
termination_by s.length
decreasing_by
  · have := (List.dropWhile_sublist Char.isLower (l := rest)).length_le
    simp only [List.length_cons]
    omega
  · simp

/-- Puts an underscore between a small letter or digit and the capital that follows it; both
are then used up. -/
def breakBeforeCapitals : List Char → List Char
  | a :: b :: rest =>
    if (a.isLower || a.isDigit) && b.isUpper then a :: '_' :: b :: breakBeforeCapitals rest
    else a :: breakBeforeCapitals (b :: rest)
  | short => short

/-- The words of a name in small letters with underscores between them. -/
def snakeCase (name : String) : String :=
  Text.lower (String.ofList (breakBeforeCapitals (breakBeforeWords name.toList)))

/-- A word with its first character in upper case. -/
def capitalise (word : List Char) : List Char :=
  match word with
  | [] => []
  | c :: rest => Text.upperChar c ++ rest

/-- The words of a name capitalised, without underscores. -/
def pascalCase (name : String) : String :=
  String.ofList (((snakeCase name).toList.splitOn '_').flatMap capitalise)

/-- The words of a name capitalised but for the first character. -/
def camelCase (name : String) : String :=
  match (pascalCase name).toList with
  | [] => ""
  | c :: rest => String.ofList (Text.lowerChars [] [c] ++ rest)

/-- The words of a name in capitals with underscores between them. -/
def constantCase (name : String) : String :=
  Text.upper (snakeCase name)

end SdlTypes.Naming
