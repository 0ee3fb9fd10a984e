import SdlTypes.Declaration.Property
import SdlTypes.Text.Basic

/-!
# Unions of which one field is set

An input object that takes exactly one of its fields is written as a union with one arm per
field. In an arm the chosen field is required, and all others can only be absent:

```
export type Pet =
  | { cat: CatInput; dog?: never }
  | { dog: DogInput; cat?: never };
```

Such a choice makes no sense with a field that may not be null; `checkNullable` refuses it.
-/

namespace SdlTypes

/-- A schema that has no form in the output: a field of a oneOf input object may not be null. -/
structure ConstructionError where
  typeName : String
  fieldName : String
  deriving DecidableEq

/-- The text of the error. -/
def ConstructionError.message (e : ConstructionError) : String :=
  "Field '" ++ e.fieldName ++ "' on the oneOf input object type '" ++ e.typeName ++
    "' can not be non-nullable. It seems like the schema was not validated."

namespace OneOf

/-- Refuses a field that may not be null. -/
def checkNullable (typeName : String) (p : Property) : Except ConstructionError Unit :=
  if p.required then .error ⟨typeName, p.name⟩ else .ok ()

/-- One arm of the union. -/
structure Arm where
  /-- The rendered comment above the arm. -/
  comment : String
  /-- The field that is set, as an exact line. -/
  chosen : Line
  /-- The names of the fields that are not. -/
  excluded : List String
  deriving DecidableEq

/-- The arm in which `p` is the field that is set. -/
def arm (p : Property) (members : List Property) (readonly : Bool) : Arm where
  comment := p.comment
  chosen := p.line readonly true
  excluded := (members.map Property.name).filter (· ≠ p.name)

namespace Arm

/-- The properties of an arm, without the semicolons at their ends. -/
def properties (a : Arm) : List String :=
  String.ofList (Text.dropEndWhile (· = ';') a.chosen.signature.toList) ::
    a.excluded.map fun name => Line.modifier a.chosen.readonly ++ name ++ "?: never"

/-- The object type of an arm. -/
def object (a : Arm) : String :=
  "\x7b " ++ Text.join "; " a.properties ++ " \x7d"

/-- The arm on a line of its own, below its comment. -/
def text (a : Arm) : String :=
  a.comment ++ indent 1 ("| " ++ a.object)

end Arm

/-- The arms of the union, one per field and in their order. -/
def arms (typeName : String) (members : List Property) (readonly : Bool) :
    Except ConstructionError (List Arm) := do
  members.forM (checkNullable typeName)
  return members.map fun p => arm p members readonly

/-- The union of the arms; without any it is the type that has no values. -/
def unionText (arms : List Arm) : String :=
  if arms.isEmpty then "never" else "\n" ++ Text.join "\n" (arms.map Arm.text)

end OneOf

end SdlTypes
