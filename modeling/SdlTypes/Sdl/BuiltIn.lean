import SdlTypes.Sdl.Document

/-!
# Built-in types and directives

What every schema knows without defining it: five scalars, the types of introspection, and the
directives `include`, `skip`, `deprecated`, `specifiedBy` and `oneOf`.

Two of the directives are looked at when a schema is built. The arguments of `deprecated` and
`specifiedBy` have to be strings, whatever a document that redefines them says; of several uses
at one place the first counts.
-/

namespace SdlTypes.Sdl.BuiltIn

/-- The built-in scalars. -/
def scalars : List String :=
  ["ID", "String", "Boolean", "Int", "Float"]

/-- The types of introspection with their kinds. -/
def introspectionTypes : List (String × TypeKind) :=
  [("__Schema", .object), ("__Type", .object), ("__TypeKind", .enum), ("__Field", .object),
    ("__InputValue", .object), ("__EnumValue", .object), ("__Directive", .object),
    ("__DirectiveLocation", .enum)]

/-- The kind of a built-in type. -/
def kind? (name : String) : Option TypeKind :=
  if name ∈ scalars then some .scalar else introspectionTypes.lookup name

/-- A required argument. -/
def requiredArgument (name type : String) : InputValueDef :=
  ⟨none, name, .named type true, none, []⟩

/-- What `deprecated` gives as the reason if it is not told one. -/
def defaultReason : String := "No longer supported"

/-- The built-in directives. -/
def directives : List DirectiveDef :=
  [⟨none, "include", [requiredArgument "if" "Boolean"], [], false,
      [.field, .fragmentSpread, .inlineFragment]⟩,
    ⟨none, "skip", [requiredArgument "if" "Boolean"], [], false,
      [.field, .fragmentSpread, .inlineFragment]⟩,
    ⟨none, "deprecated",
      [⟨none, "reason", .named "String" true, some (.string defaultReason), []⟩], [], false,
      [.fieldDefinition, .argumentDefinition, .inputFieldDefinition, .enumValue,
        .directiveDefinition]⟩,
    ⟨none, "specifiedBy", [requiredArgument "url" "String"], [], false, [.scalar]⟩,
    ⟨none, "oneOf", [], [], false, [.inputObject]⟩]

/-! ## Uses -/

/-- The first use of a directive among some directives. -/
def use? (directives : List Directive) (name : String) : Option Directive :=
  directives.find? fun d => d.name == name

/-- The text that a use of a directive gives an argument. -/
def textArgument? (use : Directive) (argument : String) : Option String :=
  match use.arguments.lookup argument with
  | some (.string text) => some text
  | _ => none

/-- Whether `deprecated`, if it is used, is given a text as the reason or none at all. -/
def isSoundDeprecation (directives : List Directive) : Bool :=
  (use? directives "deprecated").all fun use =>
    (use.arguments.lookup "reason").isNone || (textArgument? use "reason").isSome

/-- Whether `specifiedBy`, if it is used, is given a text. -/
def isSoundSpecification (directives : List Directive) : Bool :=
  (use? directives "specifiedBy").all fun use => (textArgument? use "url").isSome

end SdlTypes.Sdl.BuiltIn
