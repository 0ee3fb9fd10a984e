import SdlTypes.Schema.Loading

/-!
# The arranged document

What is folded is not the document as it was written but an arrangement of it: every type
definition once, with all its extensions merged into it, in the order of the document; then the
types of the schema that the document does not define. Directive and schema definitions keep
their places; extensions and operations are gone. Names that the schema does not know are left
out, and of two definitions with one name the first counts.

`Definition.merge` and `TypeDef.merge` append what extensions add, `Schema.arrange` makes the
arrangement.
-/

namespace SdlTypes

namespace Sdl

/-! ## Merging extensions -/

/-- What an extension adds to a definition. -/
structure Additions where
  directives : List Directive := []
  interfaces : List String := []
  members : List Member := []
  types : List String := []
  values : List EnumValueDef := []

namespace Additions

/-- The additions of a type extension. -/
def ofTypeDef (d : TypeDef) : Additions :=
  ⟨d.directives, d.body.interfaces, d.body.members, d.body.types, d.body.values⟩

/-- The additions of a definition that only has directives to give. -/
def ofDirectives (directives : List Directive) : Additions :=
  { directives }

/-- The additions of any definition. -/
def ofDefinition : Definition → Additions
  | .type d => ofTypeDef d
  | .typeExtension d => ofTypeDef d
  | .directive d => ofDirectives d.directives
  | .directiveExtension _ directives => ofDirectives directives
  | .schema d => ofDirectives d.directives
  | .schemaExtension d => ofDirectives d.directives
  | .operation o => ofDirectives o.directives
  | .fragment f => ofDirectives f.directives

end Additions

/-- A body with what it can take of the additions. -/
def TypeBody.extend (a : Additions) : TypeBody → TypeBody
  | .scalar => .scalar
  | .object is ms => .object (is ++ a.interfaces) (ms ++ a.members)
  | .interface is ms => .interface (is ++ a.interfaces) (ms ++ a.members)
  | .union ts => .union (ts ++ a.types)
  | .enum vs => .enum (vs ++ a.values)
  | .input ms => .input (ms ++ a.members)

/-- A type definition with additions. -/
def TypeDef.extend (d : TypeDef) (a : Additions) : TypeDef :=
  { d with directives := d.directives ++ a.directives, body := d.body.extend a }

/-- A type definition with its extensions, in their order. -/
def TypeDef.merge (d : TypeDef) (extensions : List TypeDef) : TypeDef :=
  extensions.foldl (fun d e => d.extend (.ofTypeDef e)) d

/-- A definition of any kind with additions. -/
def Definition.extend (a : Additions) : Definition → Definition
  | .type d => .type (d.extend a)
  | .typeExtension d => .typeExtension (d.extend a)
  | .directive d => .directive { d with directives := d.directives ++ a.directives }
  | .directiveExtension name directives => .directiveExtension name (directives ++ a.directives)
  | .schema d => .schema { d with directives := d.directives ++ a.directives }
  | .schemaExtension d => .schemaExtension { d with directives := d.directives ++ a.directives }
  | .operation o => .operation { o with directives := o.directives ++ a.directives }
  | .fragment f => .fragment { f with directives := f.directives ++ a.directives }

/-- A definition with what other definitions add to it, whatever their kinds. -/
def Definition.merge (d : Definition) (extensions : List Definition) : Definition :=
  extensions.foldl (fun d e => d.extend (.ofDefinition e)) d

end Sdl

open Sdl

/-- The definition of a type with its extensions merged. -/
def NamedType.merged (t : NamedType) : TypeDef :=
  t.definition.merge t.extensions

namespace Schema

/-- The part of the arrangement that comes from the definitions of a document, with the names
of the types in it. -/
def arrangeDefinitions (s : Schema) (seen : List String) :
    List Definition → List Definition × List String
  | [] => ([], seen)
  | .directive d :: rest =>
    let (arranged, names) := s.arrangeDefinitions seen rest
    (.directive d :: arranged, names)
  | .schema d :: rest =>
    let (arranged, names) := s.arrangeDefinitions seen rest
    (.schema d :: arranged, names)
  | .type d :: rest =>
    match s.find? d.name with
    | some t =>
      if d.name ∈ seen then s.arrangeDefinitions seen rest
      else
        let (arranged, names) := s.arrangeDefinitions (d.name :: seen) rest
        (.type (d.merge t.extensions) :: arranged, names)
    | none => s.arrangeDefinitions seen rest
  | _ :: rest => s.arrangeDefinitions seen rest

/-- The part of the arrangement that comes from the types of the schema: all that have not been
seen but those of introspection and the built-in scalars. -/
def arrangeTypes (seen : List String) : List NamedType → List Definition
  | [] => []
  | t :: rest =>
    if t.name ∈ seen ∨ isReserved t.name ∨ t.name ∈ BuiltIn.scalars then arrangeTypes seen rest
    else .type t.merged :: arrangeTypes (t.name :: seen) rest

/-- The arrangement of a document; without one, of the types of the schema. -/
def arrange (s : Schema) (document : Option Document) : Document :=
  let (arranged, seen) :=
    s.arrangeDefinitions [] ((document.map Document.definitions).getD [])
  ⟨arranged ++ arrangeTypes seen s.types⟩

end Schema

/-- The arrangement of the document that a schema was built from. -/
def LoadedSchema.arranged (l : LoadedSchema) : Document :=
  l.schema.arrange (some l.document)

end SdlTypes
