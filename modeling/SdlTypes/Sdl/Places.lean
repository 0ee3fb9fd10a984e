import SdlTypes.Sdl.Document

/-!
# The parts of a document

Lists of everything of one kind that a document holds, wherever it stands: the places where
directives are used (`Document.places`), the type names that are referred to
(`Document.typeNames`), the arguments that are given (`Document.argumentLists`) and the values
(`Document.values`). The rules for valid documents are stated on these lists.
-/

namespace SdlTypes.Sdl

/-! ## Operations -/

/-- One selection without the selections inside it. -/
structure SelectionNode where
  location : Location
  arguments : List (String × Value)
  directives : List Directive
  condition : Option String

mutual

/-- A selection and all selections inside it. -/
def Selection.nodes : Selection → List SelectionNode
  | .field _ _ arguments directives selections =>
    ⟨.field, arguments, directives, none⟩ :: selectionNodes selections
  | .spread _ directives => [⟨.fragmentSpread, [], directives, none⟩]
  | .inline condition directives selections =>
    ⟨.inlineFragment, [], directives, condition⟩ :: selectionNodes selections

/-- All selections of a selection set. -/
def selectionNodes : List Selection → List SelectionNode
  | [] => []
  | s :: rest => s.nodes ++ selectionNodes rest

end

/-- The place where directives of an operation stand. -/
def OperationKind.location : OperationKind → Location
  | .query => .query
  | .mutation => .mutation
  | .subscription => .subscription

/-! ## Places of directives -/

/-- What the uses of a directive are counted over. -/
inductive PlaceGroup where
  /-- One node of the document. -/
  | node
  /-- The definition of a type with its extensions. -/
  | type (name : String)
  /-- The definition of a directive with its extensions. -/
  | directive (name : String)
  /-- The schema definition with its extensions. -/
  | schema
  deriving DecidableEq

/-- A place where directives may be used, with those that are. -/
structure Place where
  location : Location
  group : PlaceGroup
  directives : List Directive

/-- An argument or input field as a place. -/
def InputValueDef.place (location : Location) (v : InputValueDef) : Place :=
  ⟨location, .node, v.directives⟩

/-- The places of a member. -/
def Member.places : Member → List Place
  | .field f =>
    ⟨.fieldDefinition, .node, f.directives⟩ ::
      f.arguments.map (InputValueDef.place .argumentDefinition)
  | .input v => [v.place .inputFieldDefinition]

/-- The place of a type definition itself. -/
def TypeKind.location : TypeKind → Location
  | .scalar => .scalar
  | .object => .object
  | .interface => .interface
  | .union => .union
  | .enum => .enum
  | .input => .inputObject

/-- The places of a type definition or extension. -/
def TypeDef.places (d : TypeDef) : List Place :=
  ⟨d.kind.location, .type d.name, d.directives⟩ ::
    d.body.members.flatMap Member.places ++
      d.body.values.map fun v => ⟨.enumValue, .node, v.directives⟩

/-- The places of a definition. -/
def Definition.places : Definition → List Place
  | .type d => d.places
  | .typeExtension d => d.places
  | .directive d =>
    ⟨.directiveDefinition, .directive d.name, d.directives⟩ ::
      d.arguments.map (InputValueDef.place .argumentDefinition)
  | .directiveExtension name directives =>
    [⟨.directiveDefinition, .directive name, directives⟩]
  | .schema d => [⟨.schema, .schema, d.directives⟩]
  | .schemaExtension d => [⟨.schema, .schema, d.directives⟩]
  | .operation o =>
    ⟨o.kind.location, .node, o.directives⟩ ::
      o.parameters.map (fun v => ⟨.variableDefinition, .node, v.directives⟩) ++
        (selectionNodes o.selections).map fun s => ⟨s.location, .node, s.directives⟩
  | .fragment f =>
    ⟨.fragmentDefinition, .node, f.directives⟩ ::
      (selectionNodes f.selections).map fun s => ⟨s.location, .node, s.directives⟩

/-- All places of a document. -/
def Document.places (d : Document) : List Place :=
  d.definitions.flatMap Definition.places

/-- All uses of directives in a document. -/
def Document.directiveUses (d : Document) : List Directive :=
  d.places.flatMap Place.directives

/-! ## Selections, arguments, values -/

/-- The selections of an operation or fragment. -/
def Definition.selections : Definition → List SelectionNode
  | .operation o => selectionNodes o.selections
  | .fragment f => selectionNodes f.selections
  | _ => []

/-- All lists of arguments that are given to directives and fields. -/
def Document.argumentLists (d : Document) : List (List (String × Value)) :=
  d.directiveUses.map Directive.arguments ++
    (d.definitions.flatMap Definition.selections).map SelectionNode.arguments

/-- The arguments or input fields that a member defines. -/
def Member.inputValues : Member → List InputValueDef
  | .field f => f.arguments
  | .input v => [v]

/-- The arguments and input fields that a definition defines. -/
def Definition.inputValues : Definition → List InputValueDef
  | .type d => d.body.members.flatMap Member.inputValues
  | .typeExtension d => d.body.members.flatMap Member.inputValues
  | .directive d => d.arguments
  | _ => []

/-- The variables that a definition defines. -/
def Definition.parameters : Definition → List VariableDef
  | .operation o => o.parameters
  | _ => []

/-- All values of a document, without those inside other values. -/
def Document.values (d : Document) : List Value :=
  (d.definitions.flatMap Definition.inputValues).filterMap InputValueDef.defaultValue ++
    (d.definitions.flatMap Definition.parameters).filterMap VariableDef.defaultValue ++
      d.argumentLists.flatMap fun arguments => arguments.map Prod.snd

mutual

/-- The lists of field names of all objects in a value. -/
def Value.objectNames : Value → List (List String)
  | .list items => listObjectNames items
  | .object fields => fields.map Prod.fst :: fieldObjectNames fields
  | _ => []

/-- The lists of field names of all objects in some values. -/
def listObjectNames : List Value → List (List String)
  | [] => []
  | v :: rest => v.objectNames ++ listObjectNames rest

/-- The lists of field names of all objects in the fields of an object. -/
def fieldObjectNames : List (String × Value) → List (List String)
  | [] => []
  | (_, v) :: rest => v.objectNames ++ fieldObjectNames rest

end

/-! ## Names of types -/

/-- The types that the schema definition and its extensions give to kinds of operations. -/
def Document.operationTypes (d : Document) : List (OperationKind × String) :=
  d.definitions.flatMap fun
    | .schema s => s.operations
    | .schemaExtension s => s.operations
    | _ => []

/-- The type names that a type definition or extension refers to. -/
def TypeDef.typeNames (d : TypeDef) : List String :=
  d.body.interfaces ++ d.body.types ++ d.body.members.flatMap fun
    | .field f => f.arguments.map (fun v => v.type.baseName) ++ [f.type.baseName]
    | .input v => [v.type.baseName]

/-- The type names that a type system definition refers to. -/
def Definition.typeNames : Definition → List String
  | .type d => d.typeNames
  | .typeExtension d => d.typeNames
  | .directive d => d.arguments.map fun v => v.type.baseName
  | .schema d => d.operations.map Prod.snd
  | .schemaExtension d => d.operations.map Prod.snd
  | _ => []

/-- The type names that an operation or fragment refers to. -/
def Definition.executableTypeNames : Definition → List String
  | .operation o =>
    o.parameters.map (fun v => v.type.baseName) ++
      (selectionNodes o.selections).filterMap SelectionNode.condition
  | .fragment f => f.condition :: (selectionNodes f.selections).filterMap SelectionNode.condition
  | _ => []

/-- All type names that the type system definitions of a document refer to. -/
def Document.typeNames (d : Document) : List String :=
  d.definitions.flatMap Definition.typeNames

/-- All type names that the operations and fragments of a document refer to. -/
def Document.executableTypeNames (d : Document) : List String :=
  d.definitions.flatMap Definition.executableTypeNames

end SdlTypes.Sdl
