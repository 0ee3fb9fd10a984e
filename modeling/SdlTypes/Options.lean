import SdlTypes.Constant
import SdlTypes.OrderedMap

/-!
# Options

The options of a run, in the form in which everything else reads them. Their defaults are the
defaults of the fields.
-/

namespace SdlTypes

/-- The kinds of members that never get the optional sign. -/
structure AvoidOptionals where
  /-- Fields of objects and interfaces. -/
  field : Bool := false
  /-- Arguments and input fields. -/
  inputValue : Bool := false
  /-- Arguments and input fields that have a default value. -/
  defaultValue : Bool := false
  deriving DecidableEq

/-- What is configured for one enum. -/
inductive EnumPointer where
  /-- A type, or a pointer into a module. -/
  | type (pointer : String)
  /-- The values of constants. -/
  | constants (values : OrderedMap Constant)

/-- What is configured for the enums. -/
inductive EnumOption where
  /-- All enums come from one module. -/
  | module (source : String)
  /-- Enums are configured one by one. -/
  | each (pointers : OrderedMap EnumPointer)

/-- The options of a run. -/
structure Options where
  /-- The types of scalars by name. -/
  scalars : OrderedMap String := ∅
  /-- The type of custom scalars that are not configured. -/
  defaultScalarType : String := "any"
  /-- Whether every custom scalar has to be configured. -/
  strictScalars : Bool := false
  enumValues : Option EnumOption := none
  /-- Whether internal values of the schema are left out of account. -/
  ignoreEnumValuesFromSchema : Bool := false
  /-- Whether enums are written as unions of their values. -/
  enumsAsTypes : Bool := false
  /-- Whether the text before type names also goes before enum names. -/
  enumPrefix : Bool := true
  /-- Whether the text after type names also goes after enum names. -/
  enumSuffix : Bool := true
  namingConvention : String := "keep"
  /-- The text before type names. -/
  typesPrefix : String := ""
  /-- The text after type names. -/
  typesSuffix : String := ""
  addUnderscoreToArgsType : Bool := false
  /-- Whether all properties are read-only. -/
  immutableTypes : Bool := false
  nonOptionalTypename : Bool := false
  skipTypename : Bool := false
  avoidOptionals : AvoidOptionals := {}
  /-- Whether the named types of fields are written inside `FieldWrapper`. -/
  wrapFieldDefinitions : Bool := false
  fieldWrapperValue : String := "T"
  /-- Whether the types of fields are written inside `EntireFieldWrapper`. -/
  wrapEntireFieldDefinitions : Bool := false
  entireFieldWrapperValue : String := "T"
  /-- Whether unions are open for members to come. -/
  futureProofUnions : Bool := false
  noExport : Bool := false
  onlyEnums : Bool := false
  onlyOperationTypes : Bool := false
  /-- Whether imports bring in types only. -/
  useTypeImports : Bool := false
  maybeValue : String := "T | null"
  inputMaybeValue : String := "Maybe<T>"
  /-- The types that directives give to arguments and input fields. -/
  directiveMappings : OrderedMap String := ∅
  /-- The ending of the names that are imported for such types. -/
  directiveMappingSuffix : Option String := none

/-- Whether object types, interfaces and unions are left out. -/
def Options.suppressesOutput (o : Options) : Bool :=
  o.onlyOperationTypes || o.onlyEnums

end SdlTypes
