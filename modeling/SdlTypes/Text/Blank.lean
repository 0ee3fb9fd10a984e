import SdlTypes.Text.Basic

/-!
# Blank characters

`isBlank` is the Unicode notion of white space (the property `White_Space` together with the
four information separators), and `trim` removes blanks from both ends of a text.
-/

namespace SdlTypes.Text

/-- Unicode white space: the blanks of ASCII, the separators U+001C to U+001F, and the space
characters outside ASCII. -/
def isBlank (c : Char) : Bool :=
  let n := c.toNat
  (9 ≤ n && n ≤ 13) || (28 ≤ n && n ≤ 32) || n == 0x85 || n == 0xA0 || n == 0x1680 ||
    (0x2000 ≤ n && n ≤ 0x200A) || n == 0x2028 || n == 0x2029 || n == 0x202F || n == 0x205F ||
    n == 0x3000

/-- The characters without the blanks at either end. -/
def trimChars (s : List Char) : List Char :=
  dropEndWhile isBlank (s.dropWhile isBlank)

/-- The text without the blanks at either end. -/
def trim (s : String) : String :=
  String.ofList (trimChars s.toList)

end SdlTypes.Text
