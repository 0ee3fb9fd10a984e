import SdlTypes.Text.Basic
import SdlTypes.Text.Surrogate

/-!
# Paths

A place in a file tree is the list of names that leads to it from the root. Paths are written
with slashes between the names, from the root if they begin with one and from some directory
otherwise; a single dot stays where it is and two dots lead one directory up.

`Path.names` takes a written path apart, `Path.resolve` gives its place, `Path.text` writes a
place. A name has at most `nameLimit` bytes, a path at most `sizeLimit`.
-/

namespace SdlTypes

/-- The names that lead from the root to a place. -/
abbrev Path := List String

namespace Path

/-- A path as it is written, from the root. -/
def text (p : Path) : String :=
  "/" ++ Text.join "/" p

/-- The code points of a path as it is written. -/
def points (p : Path) : List Nat :=
  Text.codePoints p.text.toList

/-- The last name of a path; the root has none. -/
def name (p : Path) : String :=
  p.getLast?.getD ""

/-- The places on the way to a path, from the root down, without the path itself. -/
def ancestors (p : Path) : List Path :=
  (List.range p.length).map p.take

/-! ## Written paths -/

/-- The names in a written path. A slash at its end is the same as a single dot behind it. -/
def names (written : String) : List String :=
  (Text.split '/' written).filter (· ≠ "") ++ if Text.endsWith written "/" then ["."] else []

/-- Where a name leads from a place. -/
def step (p : Path) (name : String) : Path :=
  if name = "." then p else if name = ".." then p.dropLast else p ++ [name]

/-- The place where a written path begins. -/
def start (directory : Path) (written : String) : Path :=
  if Text.startsWith written "/" then [] else directory

/-- The place of a written path, whether there is something or not. -/
def resolve (directory : Path) (written : String) : Path :=
  (names written).foldl step (start directory written)

/-- The slashes that a tidied path keeps at its beginning: two stay two, more become one. -/
def leadingSlashes (written : String) : String :=
  match written.toList.takeWhile (· = '/') with
  | [] => ""
  | ['/', '/'] => "//"
  | _ => "/"

/-- A written path without the names that stay where they are. -/
def tidied (written : String) : String :=
  let kept := leadingSlashes written ++ Text.join "/" ((names written).filter (· ≠ "."))
  if kept = "" then "." else kept

/-! ## Bytes -/

/-- Whether a name holds a surrogate other than the 128 ones that stand for bytes which are no
text. -/
def hasSurrogate (name : String) : Bool :=
  (Text.codePoints name.toList).any fun n => !Text.isScalar n && (n < 0xDC80 || 0xDCFF < n)

/-- How many bytes a name takes. -/
def nameSize (name : String) : Nat :=
  (Text.plain name).utf8ByteSize

/-- The most bytes that a name may have. -/
def nameLimit : Nat := 255

/-- The most bytes that a path may have, with the slashes between its names. -/
def sizeLimit : Nat := 4095

/-- Whether a written path is too long. -/
def isTooLong (written : String) : Bool :=
  sizeLimit < nameSize written

/-- The names that make no path that is too long behind the given bytes, and the others. -/
def splitAtLimit (size : Nat) : List String → List String × List String
  | [] => ([], [])
  | name :: rest =>
    if sizeLimit < size + nameSize name then ([], name :: rest)
    else
      let (within, beyond) := splitAtLimit (size + nameSize name + 1) rest
      (name :: within, beyond)

end Path

end SdlTypes
