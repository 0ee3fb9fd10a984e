import SdlTypes.Declaration.Import
import SdlTypes.Text.Basic
import SdlTypes.Text.Blank

/-!
# Mapped types

Options map scalars, enums and directives to types by a text. A text without a number sign is a
type expression and stands for itself. `source#identifier` points into the module `source`:

* `./scalars#DateTime` is a named export,
* `./scalars#default` the default export, named after what it is configured for,
* `./scalars#DateTime as Dt` a named export under another name,
* `./enums#Outer.Inner` a member of a named export.

`MappedType.parse` reads such a text; what comes of it is the type to write and the import
that the type needs.
-/

namespace SdlTypes

/-- Where the name that a mapped type starts with comes from. -/
structure ImportOrigin where
  /-- The module. -/
  source : String
  /-- The imported name, or `name as other`. -/
  name : String
  /-- Whether the default export is meant. -/
  isDefault : Bool
  deriving DecidableEq

/-- A type expression and, unless it stands for itself, its import. -/
structure MappedType where
  type : String
  origin : Option ImportOrigin
  deriving DecidableEq

namespace MappedType

/-- Whether a configured text points into a module. -/
def isPointer (pointer : String) : Bool :=
  Text.contains pointer "#"

/-- A type expression that stands for itself. -/
def inline (type : String) : MappedType :=
  ⟨type, none⟩

/-- The mapped type of an identifier in a module, configured for `name`. The ending goes behind
names that are imported as they are, to keep them apart from generated ones. -/
def imported (source identifier name ending : String) : MappedType :=
  if identifier = "default" then
    ⟨name ++ ending, some ⟨source, name ++ ending, true⟩⟩
  else
    match Text.cut? " as " identifier with
    | some (exported, renamed) =>
      ⟨Text.trim renamed,
        some ⟨source, Text.trim exported ++ " as " ++ Text.trim renamed, false⟩⟩
    | none =>
      match Text.cut? "." identifier with
      | some (root, _) => ⟨identifier, some ⟨source, root, false⟩⟩
      | none =>
        if ending = "" then ⟨identifier, some ⟨source, identifier, false⟩⟩
        else
          ⟨identifier ++ ending,
            some ⟨source, identifier ++ " as " ++ identifier ++ ending, false⟩⟩

/-- Reads a text that is configured for `name`. -/
def parse (pointer name ending : String) : MappedType :=
  match Text.cut? "#" pointer with
  | none => inline pointer
  | some (source, identifier) => imported source (Text.trim identifier) name ending

/-- The statement that imports one identifier. -/
def importOf (identifier source : String) (isDefault typesOnly : Bool) : ImportStatement :=
  if isDefault then .default identifier source typesOnly
  else .named identifier source typesOnly

/-- The import that a mapped type needs, if any. -/
def importStatement? (typesOnly : Bool) (m : MappedType) : Option ImportStatement :=
  m.origin.map fun o => importOf o.name o.source o.isDefault typesOnly

end MappedType

end SdlTypes
