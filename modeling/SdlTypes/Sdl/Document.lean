/-!
# Documents

The syntax of GraphQL documents: the type system definitions and extensions that describe a
schema, and the operations and fragments that may stand among them.

A type definition is a head (`TypeDef`: description, name, directives) with a body of one of
six kinds. An extension is the same without a description. The members of an object, an
interface or an input object are fields or input values; which of the two they are is said of
each member, because members of an extension can come to stand in a definition of another kind.

A `TypeRef` carries the mark `!` at each level as a flag, so a mark on a mark cannot be written
down.
-/

namespace SdlTypes.Sdl

/-- A reference to a type. The flag tells whether the mark `!` stands behind it. -/
inductive TypeRef where
  | named (name : String) (required : Bool)
  | list (element : TypeRef) (required : Bool)
  deriving DecidableEq

namespace TypeRef

/-- Whether the reference is marked as never null. -/
def required : TypeRef → Bool
  | named _ required => required
  | list _ required => required

/-- The reference with the mark. -/
def marked : TypeRef → TypeRef
  | named name _ => named name true
  | list element _ => list element true

/-- The name inside all lists. -/
def baseName : TypeRef → String
  | named name _ => name
  | list element _ => element.baseName

/-- How many lists and marks are around the name. -/
def wrappers : TypeRef → Nat
  | named _ required => required.toNat
  | list element required => element.wrappers + 1 + required.toNat

/-- The reference as it is written. -/
def text : TypeRef → String
  | named name required => name ++ (if required then "!" else "")
  | list element required => "[" ++ element.text ++ "]" ++ (if required then "!" else "")

end TypeRef

/-- A literal value, or a variable. Numbers are kept as they are written. -/
inductive Value where
  | int (digits : String)
  | float (digits : String)
  | string (text : String)
  | boolean (value : Bool)
  | null
  | enum (name : String)
  | list (items : List Value)
  | object (fields : List (String × Value))
  | var (name : String)

/-- A directive with its arguments, where it is used. -/
structure Directive where
  name : String
  arguments : List (String × Value)

/-- An argument or an input field. -/
structure InputValueDef where
  description : Option String
  name : String
  type : TypeRef
  defaultValue : Option Value
  directives : List Directive

/-- A field of an object or interface. -/
structure FieldDef where
  description : Option String
  name : String
  arguments : List InputValueDef
  type : TypeRef
  directives : List Directive

/-- A value of an enum. -/
structure EnumValueDef where
  description : Option String
  name : String
  directives : List Directive

/-- A member of an object, interface or input object. -/
inductive Member where
  | field (field : FieldDef)
  | input (value : InputValueDef)

namespace Member

/-- The name of the member. -/
def name : Member → String
  | field f => f.name
  | input v => v.name

/-- The member as a field; an input value is a field without arguments. -/
def asField : Member → FieldDef
  | field f => f
  | input v => ⟨v.description, v.name, [], v.type, v.directives⟩

end Member

/-- What a type definition says beyond its head. -/
inductive TypeBody where
  | scalar
  | object (interfaces : List String) (members : List Member)
  | interface (interfaces : List String) (members : List Member)
  | union (types : List String)
  | enum (values : List EnumValueDef)
  | input (members : List Member)

/-- The kinds of types. -/
inductive TypeKind where
  | scalar
  | object
  | interface
  | union
  | enum
  | input
  deriving DecidableEq

namespace TypeBody

/-- The kind of type that a body defines. -/
def kind : TypeBody → TypeKind
  | scalar => .scalar
  | object .. => .object
  | interface .. => .interface
  | union .. => .union
  | enum .. => .enum
  | input .. => .input

/-- The members of a body that has members. -/
def members : TypeBody → List Member
  | object _ ms => ms
  | interface _ ms => ms
  | input ms => ms
  | _ => []

/-- The interfaces that a body implements. -/
def interfaces : TypeBody → List String
  | object is _ => is
  | interface is _ => is
  | _ => []

/-- The types of a union. -/
def types : TypeBody → List String
  | union ts => ts
  | _ => []

/-- The values of an enum. -/
def values : TypeBody → List EnumValueDef
  | enum vs => vs
  | _ => []

end TypeBody

/-- A type definition, or a type extension, which has no description. -/
structure TypeDef where
  description : Option String
  name : String
  directives : List Directive
  body : TypeBody

/-- The kind of type that is defined. -/
def TypeDef.kind (d : TypeDef) : TypeKind :=
  d.body.kind

/-- The kinds of operations. -/
inductive OperationKind where
  | query
  | mutation
  | subscription
  deriving DecidableEq

/-- The places where a directive may be used. -/
inductive Location where
  | query
  | mutation
  | subscription
  | field
  | fragmentDefinition
  | fragmentSpread
  | inlineFragment
  | variableDefinition
  | fragmentVariableDefinition
  | schema
  | scalar
  | object
  | fieldDefinition
  | argumentDefinition
  | interface
  | union
  | enum
  | enumValue
  | inputObject
  | inputFieldDefinition
  | directiveDefinition
  deriving DecidableEq

namespace Location

/-- All places with the names they have in documents. -/
def names : List (String × Location) :=
  [("QUERY", query), ("MUTATION", mutation), ("SUBSCRIPTION", subscription), ("FIELD", field),
    ("FRAGMENT_DEFINITION", fragmentDefinition), ("FRAGMENT_SPREAD", fragmentSpread),
    ("INLINE_FRAGMENT", inlineFragment), ("VARIABLE_DEFINITION", variableDefinition),
    ("FRAGMENT_VARIABLE_DEFINITION", fragmentVariableDefinition), ("SCHEMA", schema),
    ("SCALAR", scalar), ("OBJECT", object), ("FIELD_DEFINITION", fieldDefinition),
    ("ARGUMENT_DEFINITION", argumentDefinition), ("INTERFACE", interface), ("UNION", union),
    ("ENUM", enum), ("ENUM_VALUE", enumValue), ("INPUT_OBJECT", inputObject),
    ("INPUT_FIELD_DEFINITION", inputFieldDefinition),
    ("DIRECTIVE_DEFINITION", directiveDefinition)]

/-- The place with a name. -/
def ofName? (name : String) : Option Location :=
  names.lookup name

/-- The name of a place. -/
def name (l : Location) : String :=
  ((names.find? fun p => p.2 == l).map Prod.fst).getD ""

end Location

/-- The definition of a directive. -/
structure DirectiveDef where
  description : Option String
  name : String
  arguments : List InputValueDef
  directives : List Directive
  repeatable : Bool
  locations : List Location

/-- A schema definition, or a schema extension, which has no description. -/
structure SchemaDef where
  description : Option String
  directives : List Directive
  operations : List (OperationKind × String)

/-- What an operation selects. -/
inductive Selection where
  | field (responseName : Option String) (name : String) (arguments : List (String × Value))
      (directives : List Directive) (selections : List Selection)
  | spread (name : String) (directives : List Directive)
  | inline (condition : Option String) (directives : List Directive)
      (selections : List Selection)

/-- A variable of an operation. -/
structure VariableDef where
  name : String
  type : TypeRef
  defaultValue : Option Value
  directives : List Directive

/-- An operation. -/
structure Operation where
  description : Option String
  kind : OperationKind
  name : Option String
  parameters : List VariableDef
  directives : List Directive
  selections : List Selection

/-- A named fragment. -/
structure Fragment where
  description : Option String
  name : String
  condition : String
  directives : List Directive
  selections : List Selection

/-- A definition of a document. -/
inductive Definition where
  | type (definition : TypeDef)
  | typeExtension (extension : TypeDef)
  | directive (definition : DirectiveDef)
  | directiveExtension (name : String) (directives : List Directive)
  | schema (definition : SchemaDef)
  | schemaExtension (extension : SchemaDef)
  | operation (operation : Operation)
  | fragment (fragment : Fragment)

namespace Definition

/-- The type definition that a definition is. -/
def typeDef? : Definition → Option TypeDef
  | type d => some d
  | _ => none

/-- The type extension that a definition is. -/
def extension? : Definition → Option TypeDef
  | typeExtension d => some d
  | _ => none

/-- The directive definition that a definition is. -/
def directiveDef? : Definition → Option DirectiveDef
  | directive d => some d
  | _ => none

/-- The schema definition that a definition is. -/
def schemaDef? : Definition → Option SchemaDef
  | schema d => some d
  | _ => none

end Definition

/-- A document: definitions in the order of the text. -/
structure Document where
  definitions : List Definition

namespace Document

/-- The type definitions of the document. -/
def types (d : Document) : List TypeDef :=
  d.definitions.filterMap Definition.typeDef?

/-- The type extensions of the document. -/
def extensions (d : Document) : List TypeDef :=
  d.definitions.filterMap Definition.extension?

/-- The directive definitions of the document. -/
def directives (d : Document) : List DirectiveDef :=
  d.definitions.filterMap Definition.directiveDef?

/-- The schema definitions of the document. -/
def schemas (d : Document) : List SchemaDef :=
  d.definitions.filterMap Definition.schemaDef?

/-- The definitions of several documents in one. -/
def concat (ds : List Document) : Document :=
  ⟨ds.flatMap definitions⟩

end Document

end SdlTypes.Sdl
