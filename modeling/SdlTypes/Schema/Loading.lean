import SdlTypes.Schema
import SdlTypes.Sdl.Grammar
import SdlTypes.Sdl.Validity

/-!
# Loading a schema

`LoadedSchema.ofText` reads a text, checks the rules for valid documents and builds the schema.
While it is built the uses of `deprecated` and `specifiedBy` are looked at, but for those on enum
values: an enum is only asked for its values when they are needed.

The types of the schema are those that the document defines, in its order, followed by the
built-in ones that they use. A definition with the name of a built-in type leaves that type as
it is.
-/

namespace SdlTypes

open Sdl

/-- The reasons why a text is no schema. -/
inductive LoadError where
  /-- The text does not follow the grammar. -/
  | malformed
  /-- The document breaks a rule. -/
  | invalid
  /-- A built-in directive has an argument that is no string. -/
  | badArgument
  deriving DecidableEq

/-- The text of an error. -/
def LoadError.message : LoadError → String
  | .malformed => "Syntax error in the schema"
  | .invalid => "Invalid schema"
  | .badArgument => "A built-in directive has an argument that is no string"

namespace Schema

/-- The type for a definition of a document. -/
def typeOf (d : Document) (definition : TypeDef) : NamedType :=
  match BuiltIn.kind? definition.name with
  | some kind => .builtIn definition.name kind
  | none =>
    .ofDefinition .document definition
      (d.extensions.filter fun e => e.name = definition.name)

/-- The names of the types of operations if no schema definition says which they are. -/
def usualOperationType : OperationKind → String
  | .query => "Query"
  | .mutation => "Mutation"
  | .subscription => "Subscription"

/-- The types of the operations. Without a schema definition a type with the usual name goes
before one that an extension names. -/
def operationTypeNames (d : Document) : List String :=
  (if d.schemas.isEmpty then
      d.operationTypes.filter fun (kind, _) =>
        usualOperationType kind ∉ d.types.map TypeDef.name
    else d.operationTypes).map Prod.snd

/-- The names that the types, directives and operations of a schema refer to. What stands in
definitions of built-in types does not count. -/
def referredNames (d : Document) : List String :=
  ((d.types ++ d.extensions).filter fun t => (BuiltIn.kind? t.name).isNone).flatMap
      TypeDef.typeNames ++
    d.directives.flatMap (fun definition => definition.arguments.map fun v => v.type.baseName) ++
    operationTypeNames d

/-- The built-in types that a schema needs: those of introspection with the scalars they use,
and the other scalars that it refers to. -/
def builtInTypes (d : Document) : List NamedType :=
  let scalars := BuiltIn.scalars.filter fun name =>
    name = "String" ∨ name = "Boolean" ∨ name ∈ referredNames d
  scalars.map (NamedType.builtIn · .scalar) ++
    BuiltIn.introspectionTypes.map fun (name, kind) => .builtIn name kind

/-- The schema that a document describes. -/
def ofDocument (d : Document) : Schema :=
  .ofTypes (d.types.map (typeOf d) ++ builtInTypes d) d.directives

end Schema

/-! ## Arguments of built-in directives -/

/-- Whether the built-in directives on a member and its arguments are sound. -/
def isSoundMember (m : Member) : Bool :=
  BuiltIn.isSoundDeprecation m.asField.directives &&
    m.inputValues.all fun v => BuiltIn.isSoundDeprecation v.directives

/-- Whether the built-in directives of a type are sound. Those on enum values are not looked at
before the values are read. -/
def isSoundType (t : NamedType) : Bool :=
  (t.definition :: t.extensions).all fun d =>
    (d.kind != .scalar || BuiltIn.isSoundSpecification d.directives) &&
      d.body.members.all isSoundMember

/-- The directives on a directive definition, followed by those of its extensions. -/
def directiveUsesOn (d : Document) (definition : DirectiveDef) : List Directive :=
  definition.directives ++ d.definitions.flatMap fun
    | .directiveExtension name directives => if name = definition.name then directives else []
    | _ => []

/-- Whether the built-in directives on a directive definition and its arguments are sound. -/
def isSoundDirective (d : Document) (definition : DirectiveDef) : Bool :=
  BuiltIn.isSoundDeprecation (directiveUsesOn d definition) &&
    definition.arguments.all fun v => BuiltIn.isSoundDeprecation v.directives

/-! ## Loading -/

/-- A schema with the document it was built from. -/
structure LoadedSchema where
  schema : Schema
  document : Document

namespace LoadedSchema

/-- The schema of a document that keeps the rules. -/
def ofDocument (d : Document) : Except LoadError LoadedSchema :=
  if d.Valid then
    let schema := Schema.ofDocument d
    if schema.types.all isSoundType && d.directives.all (isSoundDirective d) then .ok ⟨schema, d⟩
    else .error .badArgument
  else .error .invalid

/-- The schema that a text describes. -/
def ofText (text : String) : Except LoadError LoadedSchema :=
  match Document.parse? text with
  | some d => ofDocument d
  | none => .error .malformed

/-- Replaces the internal value of an enum value, for which the values of the enum are read. -/
def setInternalValue (l : LoadedSchema) (enumName valueName : String) (value : Option Constant) :
    Except LoadError LoadedSchema :=
  if (l.schema.find? enumName).all NamedType.hasSoundValues then
    .ok { l with schema := l.schema.setInternalValue enumName valueName value }
  else .error .badArgument

end LoadedSchema

end SdlTypes
