import SdlTypes.Schema.Arrangement

/-!
# Schemas from introspection

A schema can be described to others by introspection and be rebuilt from the description. What
comes back are the types in their order with descriptions, deprecations, default values, and
the two built-in directives `specifiedBy` and `oneOf`. All other directives are lost, and no
type has a node of a document any more.

A description speaks of types in a fixed number of steps, one for each list or mark around a
name. A schema with a deeper type has a description but cannot be rebuilt from it.

`Schema.introspected` is the rebuilt schema. Its definitions are those that one gets by writing
the types out and reading them again.
-/

namespace SdlTypes

open Sdl

/-- The reasons why a schema cannot be described and rebuilt. -/
inductive IntrospectionError where
  /-- A deprecation of a value of the enum gives a reason that is no text. -/
  | badReason (enumName : String)
  /-- A type of a field, argument or input field is too deep for descriptions. -/
  | tooDeep
  deriving DecidableEq

/-- The text of an error. -/
def IntrospectionError.message : IntrospectionError → String
  | .badReason enumName => "A reason for a deprecation in enum " ++ enumName ++ " is no text"
  | .tooDeep => "A type is too deep for introspection"

namespace Introspection

/-- How many lists and marks a description can put around a name. -/
def depthLimit : Nat := 9

/-- The types of a member and its arguments. -/
def memberTypes : Member → List TypeRef
  | .field f => f.type :: f.arguments.map InputValueDef.type
  | .input v => [v.type]

/-- All types that a description of a schema speaks of. -/
def typeRefs (s : Schema) : List TypeRef :=
  (s.types.flatMap fun t => t.merged.body.members.flatMap memberTypes) ++
    s.directives.flatMap fun d => d.arguments.map InputValueDef.type

/-- What a deprecation is written as. The default reason is left out. -/
def deprecation (use : Directive) : Directive :=
  match BuiltIn.textArgument? use "reason" with
  | some reason =>
    if reason = BuiltIn.defaultReason then ⟨"deprecated", []⟩
    else ⟨"deprecated", [("reason", .string reason)]⟩
  | none => ⟨"deprecated", []⟩

/-- The directives that a member keeps. -/
def memberDirectives (directives : List Directive) : List Directive :=
  ((BuiltIn.use? directives "deprecated").map deprecation).toList

/-- An argument or input field as it comes back. -/
def inputValue (v : InputValueDef) : InputValueDef :=
  { v with directives := memberDirectives v.directives }

/-- A field as it comes back. -/
def field (f : FieldDef) : FieldDef :=
  { f with
    arguments := f.arguments.map inputValue
    directives := memberDirectives f.directives }

/-- A member as it comes back. -/
def member : Member → Member
  | .field f => .field (field f)
  | .input v => .input (inputValue v)

/-- The body of a type as it comes back. -/
def body : TypeBody → TypeBody
  | .scalar => .scalar
  | .object is ms => .object is (ms.map member)
  | .interface is ms => .interface is (ms.map member)
  | .union ts => .union ts
  | .enum vs => .enum (vs.map fun v => { v with directives := memberDirectives v.directives })
  | .input ms => .input (ms.map member)

/-- The address at which a scalar is specified: that of the last extension that gives one, else
that of the definition. An extension that gives the empty text gives none. -/
def specification? (t : NamedType) : Option String :=
  let given (d : TypeDef) : Option String :=
    (BuiltIn.use? d.directives "specifiedBy").bind (BuiltIn.textArgument? · "url")
  t.extensions.foldl (fun url e => ((given e).filter (· ≠ "")).or url) (given t.definition)

/-- The directives that a type keeps. -/
def typeDirectives (t : NamedType) : List Directive :=
  match t.kind with
  | .scalar => ((specification? t).map fun url => ⟨"specifiedBy", [("url", .string url)]⟩).toList
  | .input => if Schema.marksOneOf t.definition.directives then [⟨"oneOf", []⟩] else []
  | _ => []

/-- A type as it comes back. -/
def type (t : NamedType) : NamedType :=
  match t.source with
  | .builtIn => t
  | _ =>
    .ofDefinition .introspection
      { t.definition with
        directives := typeDirectives t
        body := body t.merged.body } []

end Introspection

/-- The schema rebuilt from its description. -/
def Schema.introspected (s : Schema) : Except IntrospectionError Schema :=
  match s.types.find? fun t => !t.hasSoundValues with
  | some t => .error (.badReason t.name)
  | none =>
    if (Introspection.typeRefs s).any fun r => Introspection.depthLimit < r.wrappers then
      .error .tooDeep
    else .ok (.ofTypes (s.types.map Introspection.type) [])

end SdlTypes
