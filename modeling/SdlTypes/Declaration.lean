import SdlTypes.Constant
import SdlTypes.Declaration.Block
import SdlTypes.Declaration.OneOf
import SdlTypes.Declaration.Property
import SdlTypes.Text.Quoted

/-!
# Declarations

What a definition of a schema becomes, before it is text. A `Declaration` knows whether it is
exported, its keyword, name and comment, and a body of one of five forms; a `Statement` is a
declaration, or passes on an enum of another module. `Declaration.text` goes by way of a
`Block`, which decides on braces, equals sign and semicolon.
-/

namespace SdlTypes

/-- The keywords of declarations. -/
inductive Keyword where
  | type
  | interface
  | enum
  deriving DecidableEq

/-- The keyword as it is written. -/
def Keyword.text : Keyword → String
  | .type => "type"
  | .interface => "interface"
  | .enum => "enum"

/-- The literal for a constant: texts are quoted, numbers are decimal. -/
def Constant.literal : Constant → String
  | .text value => Text.quoted value
  | .int value => value.repr
  | .bool value => if value then "True" else "False"

/-- A member of a union of types. -/
inductive UnionMember where
  /-- A type of the schema. -/
  | reference (identifier : String)
  /-- All types that may be added to the union later. -/
  | other (readonly : Bool)
  deriving DecidableEq

/-- The member as it is written. -/
def UnionMember.text : UnionMember → String
  | .reference identifier => identifier
  | .other readonly => "\x7b " ++ Line.modifier readonly ++ "__typename?: \"%other\" \x7d"

/-- An enum value with the comment above it. -/
structure Enumerator where
  comment : String
  /-- The converted name. -/
  name : String
  value : Constant
  deriving DecidableEq

namespace Enumerator

/-- The value as a line of an enum. -/
def line (e : Enumerator) : String :=
  e.comment ++ indent 1 (e.name ++ " = " ++ e.value.literal ++ ",")

/-- The value as an arm of a union. -/
def arm (e : Enumerator) : String :=
  e.comment ++ indent 1 ("| " ++ e.value.literal)

end Enumerator

/-- What a declaration says of its name. -/
inductive Body where
  /-- The properties of an object, in addition to those of its interfaces. -/
  | properties (interfaces : List String) (lines : List Line)
  /-- One of several types. -/
  | union (members : List UnionMember)
  /-- An object of which one field is set. -/
  | oneOf (arms : List OneOf.Arm)
  /-- One of several constants. -/
  | literals (values : List Enumerator)
  /-- The constants of an enum. -/
  | enumerators (values : List Enumerator)
  deriving DecidableEq

/-- A top-level declaration. -/
structure Declaration where
  exported : Bool
  keyword : Keyword
  name : String
  /-- The text of the comment above the declaration, empty if there is none. -/
  comment : String := ""
  body : Body
  deriving DecidableEq

namespace Declaration

/-- The declaration without its body as a block. -/
def frame (d : Declaration) : Block where
  exported := d.exported
  keyword := d.keyword.text
  name := d.name
  comment := Comment.render 0 d.comment

/-- The declaration as a block. -/
def block (d : Declaration) : Block :=
  match d.body with
  | .properties interfaces lines => d.frame.withBody interfaces (lines.map Line.text)
  | .union members => { d.frame with content := Text.join " | " (members.map UnionMember.text) }
  | .oneOf arms => { d.frame with content := OneOf.unionText arms }
  | .literals values =>
    { d.frame with content := "\n" ++ Text.join "\n" (values.map Enumerator.arm) }
  | .enumerators values => { d.frame with inner := Text.join "\n" (values.map Enumerator.line) }

/-- The declaration as it is written, with the line break that ends it. -/
def text (d : Declaration) : String :=
  d.block.text

end Declaration

/-- A statement that a definition becomes. -/
inductive Statement where
  | declare (declaration : Declaration)
  /-- Passes on what an import has bound. -/
  | reexport (identifier : String) (typesOnly : Bool)
  deriving DecidableEq

/-- The statement as it is written, with the line break that ends it. -/
def Statement.text : Statement → String
  | .declare d => d.text
  | .reexport identifier typesOnly =>
    "export " ++ (if typesOnly then "type " else "") ++ "\x7b " ++ identifier ++ " \x7d;\n"

/-- The statements of one definition as they are written; without any it is the empty text. -/
def statementsText (statements : List Statement) : String :=
  Text.join "\n" (statements.map Statement.text)

end SdlTypes
