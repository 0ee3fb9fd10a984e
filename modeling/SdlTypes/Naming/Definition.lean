import SdlTypes.Sdl.Document

/-!
# Names of definitions

Most definitions have a name; schema definitions, their extensions and some operations have
none.
-/

namespace SdlTypes

open Sdl

/-- The kinds of definitions that may be without a name. -/
inductive UnnamedDefinition where
  | schema
  | schemaExtension
  | operation
  deriving DecidableEq

/-- The text of the error for a definition without a name. -/
def UnnamedDefinition.message (u : UnnamedDefinition) : String :=
  "Cannot derive a name from " ++
    match u with
    | schema => "SchemaDefinitionNode"
    | schemaExtension => "SchemaExtensionNode"
    | operation => "OperationDefinitionNode"

/-- The name of a definition. -/
def Sdl.Definition.name : Definition → Except UnnamedDefinition String
  | .type d => .ok d.name
  | .typeExtension d => .ok d.name
  | .directive d => .ok d.name
  | .directiveExtension name _ => .ok name
  | .schema _ => .error .schema
  | .schemaExtension _ => .error .schemaExtension
  | .operation o =>
    match o.name with
    | some name => .ok name
    | none => .error .operation
  | .fragment f => .ok f.name

end SdlTypes
