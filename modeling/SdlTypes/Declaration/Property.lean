import SdlTypes.Declaration.Comment
import SdlTypes.Declaration.Fragment

/-!
# Properties

A `Line` is one property as a block shows it, `readonly name?: Type;`. A `Property` is a field,
argument or input field that has been folded but not yet put into a block: it knows what its
definition said about null, and carries an override where something else than the declared
type is to be written.
-/

namespace SdlTypes

/-- One property of a block. -/
structure Line where
  /-- The rendered comment above the property. -/
  comment : String := ""
  readonly : Bool
  name : String
  optional : Bool
  type : String
  deriving DecidableEq

namespace Line

/-- What goes before the name of a read-only property. -/
def modifier (readonly : Bool) : String :=
  if readonly then "readonly " else ""

/-- The property without comment and indentation. -/
def signature (l : Line) : String :=
  modifier l.readonly ++ l.name ++ (if l.optional then "?" else "") ++ ": " ++ l.type ++ ";"

/-- The property with its comment, indented as inside a block. -/
def text (l : Line) : String :=
  l.comment ++ indent 1 l.signature

end Line

/-- A folded field, argument or input field. -/
structure Property where
  name : String
  type : Fragment
  optional : Bool
  /-- Whether the declared type is marked as never null. -/
  required : Bool
  /-- The rendered comment. -/
  comment : String := ""
  /-- What is written in place of the type. -/
  override : Option String := none
  deriving DecidableEq

namespace Property

/-- The written type; an exact one is without the wrapper. -/
def typeText (p : Property) (exact : Bool) : String :=
  match p.override with
  | some text => text
  | none => if exact then p.type.unwrapped.render else p.type.render

/-- The property as a line of a block. An exact line is never optional. -/
def line (p : Property) (readonly exact : Bool) : Line where
  comment := p.comment
  readonly := readonly
  name := p.name
  optional := p.optional && !exact
  type := p.typeText exact

/-- The property as it is written, without comment and indentation. -/
def signature (p : Property) (readonly exact : Bool) : String :=
  (p.line readonly exact).signature

end Property

/-- A folded field together with its folded arguments. -/
structure FieldProperty extends Property where
  arguments : List Property := []
  deriving DecidableEq

end SdlTypes
