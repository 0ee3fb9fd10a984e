import SdlTypes.Declaration.Comment
import SdlTypes.Text.Basic

/-!
# Declaration blocks

A top-level declaration put together from pieces of text: comment, `export`, keyword and name,
then content, a block in braces, or both. `Block.text` decides on the braces, the equals sign
and the semicolon from which of the pieces are there.

```
/** A user. */
export type User = Node & {
  id: string;
};
```
-/

namespace SdlTypes

/-- The pieces of a declaration. A piece that is missing is empty. -/
structure Block where
  /-- Whether the declaration is never exported, whatever is asked for later. -/
  neverExported : Bool := false
  exported : Bool := false
  keyword : String := ""
  name : String := ""
  /-- The rendered comment with the line break that ends it. -/
  comment : String := ""
  content : String := ""
  /-- The lines between the braces. -/
  inner : String := ""
  deriving DecidableEq

namespace Block

/-- Asks for an export, or takes the wish back. -/
def withExport (b : Block) (exported : Bool) : Block :=
  if b.neverExported then b else { b with exported }

/-- Gives the declaration a comment, a missing text being none. -/
def withComment (b : Block) (text : Option String) : Block :=
  { b with comment := Comment.render 0 (text.getD "") }

/-- The interfaces with `&` between them, and one more behind them if fields follow. -/
def mergeInterfaces (interfaces : List String) (hasFields : Bool) : String :=
  Text.join " & " interfaces ++ (if !interfaces.isEmpty && hasFields then " & " else "")

/-- Gives the declaration the body `A & B & { … }`, where the braces need a field. -/
def withBody (b : Block) (interfaces fields : List String) : Block :=
  { b with
    content := mergeInterfaces interfaces (!fields.isEmpty)
    inner := Text.join "\n" fields }

/-- The keywords of declarations that a closing brace ends. -/
def closedByBrace (keyword : String) : Bool :=
  keyword ∈ ["interface", "enum", "namespace", "function"]

/-- What stands before the content. -/
def head (b : Block) : String :=
  (if b.exported then "export " else "") ++
    if b.keyword = "" then ""
    else
      b.keyword ++ " " ++ (if b.name = "" then "" else b.name ++ " ") ++
        (if b.keyword = "type" then "= " else "")

/-- What stands behind the head: content and block, or empty braces for want of both. -/
def body (b : Block) : String :=
  if b.inner ≠ "" then b.content ++ "\x7b\n" ++ b.inner ++ "\n\x7d"
  else if b.content ≠ "" then b.content
  else if b.keyword ≠ "" then "\x7b\x7d"
  else ""

/-- The declaration with its comment and the line break that ends it. No blanks are left at the
end of a line when the content begins on the next. -/
def text (b : Block) : String :=
  b.comment ++
    (if Text.startsWith b.content "\n" then Comment.trimEnd b.head else b.head) ++
    b.body ++ (if closedByBrace b.keyword then "" else ";") ++ "\n"

end Block

end SdlTypes
