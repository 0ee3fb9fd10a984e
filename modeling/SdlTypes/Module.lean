import SdlTypes.Fold
import SdlTypes.Schema.Arrangement

/-!
# Modules

The module that a run writes. In front stand the import statements and the helper types that
all declarations rely on; then come the container of scalars, the container of types that
directives give, the folded definitions, and declarations that were rendered elsewhere.

`Module.generate` makes the module for a schema, `Module.text` writes it.
-/

namespace SdlTypes

open Sdl

/-- A helper type: `type Maybe<T> = T | null;`. -/
structure HelperType where
  exported : Bool
  name : String
  parameters : String
  definition : String
  deriving DecidableEq

/-- The helper type as it is written. -/
def HelperType.text (h : HelperType) : String :=
  (if h.exported then "export " else "") ++ "type " ++ h.name ++ "<" ++ h.parameters ++ "> = " ++
    h.definition ++ ";"

/-- The helper types that a module declares. -/
def helperTypes (o : Options) : List HelperType :=
  let helper := HelperType.mk (!o.noExport)
  if o.onlyEnums then []
  else
    [helper "Maybe" "T" o.maybeValue,
      helper "InputMaybe" "T" o.inputMaybeValue,
      helper "Exact" "T extends \x7b [key: string]: unknown \x7d" "\x7b [K in keyof T]: T[K] \x7d",
      helper "MakeOptional" "T, K extends keyof T"
        "Omit<T, K> & \x7b [SubKey in K]?: Maybe<T[SubKey]> \x7d",
      helper "MakeMaybe" "T, K extends keyof T"
        "Omit<T, K> & \x7b [SubKey in K]: Maybe<T[SubKey]> \x7d"] ++
      (if o.wrapFieldDefinitions then [helper "FieldWrapper" "T" o.fieldWrapperValue] else []) ++
      (if o.wrapEntireFieldDefinitions then
        [helper "EntireFieldWrapper" "T" o.entireFieldWrapperValue]
      else [])

/-! ## Containers -/

/-- An entry of a container. -/
def containerLine (description : Option String) (name type : String) : Line where
  comment := Comment.render 1 (description.getD "")
  readonly := false
  name := name
  optional := false
  type := type

/-- The container of scalars. -/
def scalarContainer (s : Schema) (o : Options) (scalars : OrderedMap MappedType) :
    Declaration where
  exported := !o.noExport
  keyword := .type
  name := "Scalars"
  comment := "All built-in and custom scalars, mapped to their actual values"
  body := .properties [] (scalars.entries.map fun (name, mapped) =>
    containerLine ((s.find? name).bind NamedType.documentedText) name mapped.type)

/-- The container of the types that directives give, if any do. -/
def directiveContainer? (s : Schema) (directives : OrderedMap MappedType) : Option Declaration :=
  if directives.isEmpty then none
  else
    some {
      exported := false
      keyword := .type
      name := Fold.directiveContainer
      body := .properties [] (directives.entries.map fun (name, mapped) =>
        containerLine ((s.directive? name).bind DirectiveDef.description) name mapped.type) }

/-- The line above the container of the types that directives give. -/
def directiveContainerNote : String := "// Type overrides using directives\n"

/-! ## The module -/

/-- The parts of a module. -/
structure Module where
  imports : List ImportStatement
  helpers : List HelperType
  scalars : Declaration
  directives : Option Declaration
  /-- The statements of each definition. -/
  definitions : List (List Statement)
  /-- Declarations that were rendered elsewhere. -/
  further : List String

/-- The reasons why a schema and options give no module. -/
inductive GenerationError where
  | tables (error : TableError)
  | fold (error : FoldError)
  deriving DecidableEq

/-- The text of an error. -/
def GenerationError.message : GenerationError → String
  | .tables e => e.message
  | .fold e => e.message

namespace Module

/-- The statements at the top. -/
def preamble (m : Module) : List String :=
  (m.imports.map ImportStatement.text ++ m.helpers.map HelperType.text).filter (· ≠ "")

/-- The declarations below. -/
def content (m : Module) : String :=
  Text.join "\n" ((m.scalars.text ::
    (m.directives.map fun d => directiveContainerNote ++ d.text).toList ++
      m.definitions.map statementsText ++ m.further).filter (· ≠ ""))

/-- The module as it is written: each statement of the top on a line of its own, an empty line,
the declarations. -/
def text (m : Module) : String :=
  m.preamble.foldr (fun statement rest => statement ++ "\n" ++ rest)
    ((if m.preamble.isEmpty then "" else "\n") ++ m.content)

/-- The imports that the tables of a run need: those of enums, directives, then scalars. -/
def importsOf (symbols : SymbolTables) (typesOnly : Bool) : List ImportStatement :=
  Enums.imports symbols.enums typesOnly ++ mappedImports symbols.directives typesOnly ++
    mappedImports symbols.scalars typesOnly

/-- The module of folded definitions. -/
def assemble (s : Schema) (o : Options) (symbols : SymbolTables)
    (definitions : List (List Statement)) (further : List String) : Module where
  imports := importsOf symbols o.useTypeImports
  helpers := helperTypes o
  scalars := scalarContainer s o symbols.scalars
  directives := directiveContainer? s symbols.directives
  definitions := definitions
  further := further

/-- The module for a schema. The document is what is folded, the arrangement of the schema's
types if there is none. A function on names that is given takes the place of the convention of
the options. -/
def generate (s : Schema) (o : Options) (document : Option Document)
    (convert : Option (String → String)) (further : List String) :
    Except GenerationError Module := do
  let convert ← (SymbolTables.conversion o convert).mapError fun e => .tables (.config e)
  let symbols ← (SymbolTables.build s o (some convert)).mapError .tables
  let context := FoldContext.ofTables s o symbols convert
  let (folded, _) := (Fold.document context (document.getD (s.arrange none))).run.run {}
  let definitions ← folded.mapError .fold
  return assemble s o symbols definitions further

end Module

end SdlTypes
