import SdlTypes.ConfigError
import SdlTypes.Json.Reader
import SdlTypes.Options
import SdlTypes.Text.Lines

/-!
# Reading options

Options are given as a JSON object. Every option has two spellings, `typesPrefix` and
`types_prefix`; an unknown name is refused, and so is an option given in both spellings. Texts
have to be JSON strings. Truth values may also be the numbers 0 and 1 and the usual words, and a
whole number may be written with a point or as a truth value.

`Options.ofJson` reads an object, `Options.ofFileText` the text of an option file.
-/

namespace SdlTypes

namespace OptionReader

/-- What reading a part of the options gives: all that is wrong is refused alike. -/
abbrev Reading (α : Type) := Except ConfigError α

variable {α : Type}

/-- The refusal. -/
def refuse : Reading α :=
  .error .invalidOptions

/-- A result that may be missing, as a reading. -/
def orRefuse : Option α → Reading α
  | some a => .ok a
  | none => refuse

/-! ## Values -/

/-- Reads a text. -/
def text : Json → Reading String
  | .string s => .ok s
  | _ => refuse

/-- Reads a text or `null`. -/
def optionalText : Json → Reading (Option String)
  | .null => .ok none
  | j => some <$> text j

/-- The truth value of a number. -/
def truthOfNumber (n : Int) : Reading Bool :=
  if n = 0 then .ok false else if n = 1 then .ok true else refuse

/-- The words for false. -/
def falseWords : List String := ["0", "off", "f", "false", "n", "no"]

/-- The words for true. -/
def trueWords : List String := ["1", "on", "t", "true", "y", "yes"]

/-- Reads a truth value. -/
def truth : Json → Reading Bool
  | .bool b => .ok b
  | .int n => truthOfNumber n
  | .real x => orRefuse (Json.wholeDouble? x) >>= truthOfNumber
  | .string s =>
    let word := s.map Char.toLower
    if word ∈ falseWords then .ok false else if word ∈ trueWords then .ok true else refuse
  | _ => refuse

/-- Reads the value of an enum constant. -/
def constant : Json → Reading Constant
  | .string s => .ok (.text s)
  | .int n => .ok (.int n)
  | .bool b => .ok (.int (if b then 1 else 0))
  | .real x => Constant.int <$> orRefuse (Json.wholeDouble? x)
  | _ => refuse

/-- Reads an object whose values are all of one form. -/
def mapOf (value : Json → Reading α) : Json → Reading (OrderedMap α)
  | .object members => do
    let entries ← members.mapM fun (key, j) => return (key, ← value j)
    return .ofList entries
  | _ => refuse

/-- Reads what is configured for one enum. -/
def enumPointer : Json → Reading EnumPointer
  | .string s => .ok (.type s)
  | j => EnumPointer.constants <$> mapOf constant j

/-- Reads what is configured for the enums. -/
def enumOption : Json → Reading (Option EnumOption)
  | .null => .ok none
  | .string s => .ok (some (.module s))
  | j => (some ∘ EnumOption.each) <$> mapOf enumPointer j

/-! ## Objects with known members -/

/-- The other spelling of a name: an underscore and a small letter for each capital. -/
def underscored (name : String) : String :=
  String.ofList (name.toList.flatMap fun c => if c.isUpper then ['_', c.toLower] else [c])

/-- Whether all members have one of the names, in one of its spellings. -/
def knowsAll (names : List String) (members : List (String × Json)) : Bool :=
  members.all fun (key, _) => key ∈ names || key ∈ names.map underscored

/-- The value of a member in one of its spellings. -/
def member? (members : List (String × Json)) (name : String) : Reading (Option Json) :=
  match members.lookup name, members.lookup (underscored name) with
  | some j, none => .ok (some j)
  | none, other => .ok other
  | some j, some _ => if underscored name = name then .ok (some j) else refuse

/-- Reads a member, or takes the default if it is missing. -/
def member (members : List (String × Json)) (read : Json → Reading α) (name : String)
    (default : α) : Reading α := do
  match ← member? members name with
  | some j => read j
  | none => return default

/-- Reads for which members the optional sign is avoided: for all, for none, or for each kind
as it is said. -/
def avoidOptionals : Json → Reading AvoidOptionals
  | .bool b => .ok ⟨b, b, b⟩
  | .null => .ok {}
  | .object ms =>
    if knowsAll ["field", "inputValue", "defaultValue"] ms then do
      return { field := ← member ms truth "field" false
               inputValue := ← member ms truth "inputValue" false
               defaultValue := ← member ms truth "defaultValue" false }
    else refuse
  | _ => refuse

/-- The names of all options. -/
def optionNames : List String :=
  ["scalars", "defaultScalarType", "strictScalars", "enumValues", "ignoreEnumValuesFromSchema",
    "enumsAsTypes", "enumPrefix", "enumSuffix", "namingConvention", "typesPrefix",
    "typesSuffix", "addUnderscoreToArgsType", "immutableTypes", "nonOptionalTypename",
    "skipTypename", "avoidOptionals", "wrapFieldDefinitions", "fieldWrapperValue",
    "wrapEntireFieldDefinitions", "entireFieldWrapperValue", "futureProofUnions", "noExport",
    "onlyEnums", "onlyOperationTypes", "useTypeImports", "maybeValue", "inputMaybeValue",
    "directiveArgumentAndInputFieldMappings",
    "directiveArgumentAndInputFieldMappingTypeSuffix"]

/-- Reads the members of the option object. -/
def options (ms : List (String × Json)) : Reading Options := do
  let d : Options := {}
  return {
    scalars := ← member ms (mapOf text) "scalars" d.scalars
    defaultScalarType := ← member ms text "defaultScalarType" d.defaultScalarType
    strictScalars := ← member ms truth "strictScalars" d.strictScalars
    enumValues := ← member ms enumOption "enumValues" d.enumValues
    ignoreEnumValuesFromSchema :=
      ← member ms truth "ignoreEnumValuesFromSchema" d.ignoreEnumValuesFromSchema
    enumsAsTypes := ← member ms truth "enumsAsTypes" d.enumsAsTypes
    enumPrefix := ← member ms truth "enumPrefix" d.enumPrefix
    enumSuffix := ← member ms truth "enumSuffix" d.enumSuffix
    namingConvention := ← member ms text "namingConvention" d.namingConvention
    typesPrefix := ← member ms text "typesPrefix" d.typesPrefix
    typesSuffix := ← member ms text "typesSuffix" d.typesSuffix
    addUnderscoreToArgsType :=
      ← member ms truth "addUnderscoreToArgsType" d.addUnderscoreToArgsType
    immutableTypes := ← member ms truth "immutableTypes" d.immutableTypes
    nonOptionalTypename := ← member ms truth "nonOptionalTypename" d.nonOptionalTypename
    skipTypename := ← member ms truth "skipTypename" d.skipTypename
    avoidOptionals := ← member ms avoidOptionals "avoidOptionals" d.avoidOptionals
    wrapFieldDefinitions := ← member ms truth "wrapFieldDefinitions" d.wrapFieldDefinitions
    fieldWrapperValue := ← member ms text "fieldWrapperValue" d.fieldWrapperValue
    wrapEntireFieldDefinitions :=
      ← member ms truth "wrapEntireFieldDefinitions" d.wrapEntireFieldDefinitions
    entireFieldWrapperValue :=
      ← member ms text "entireFieldWrapperValue" d.entireFieldWrapperValue
    futureProofUnions := ← member ms truth "futureProofUnions" d.futureProofUnions
    noExport := ← member ms truth "noExport" d.noExport
    onlyEnums := ← member ms truth "onlyEnums" d.onlyEnums
    onlyOperationTypes := ← member ms truth "onlyOperationTypes" d.onlyOperationTypes
    useTypeImports := ← member ms truth "useTypeImports" d.useTypeImports
    maybeValue := ← member ms text "maybeValue" d.maybeValue
    inputMaybeValue := ← member ms text "inputMaybeValue" d.inputMaybeValue
    directiveMappings :=
      ← member ms (mapOf text) "directiveArgumentAndInputFieldMappings" d.directiveMappings
    directiveMappingSuffix :=
      ← member ms optionalText "directiveArgumentAndInputFieldMappingTypeSuffix"
        d.directiveMappingSuffix }

end OptionReader

namespace Options

/-- The options that a JSON object gives. -/
def ofJson : Json → Except ConfigError Options
  | .object members =>
    if OptionReader.knowsAll OptionReader.optionNames members then OptionReader.options members
    else .error .invalidOptions
  | _ => .error .invalidOptions

/-- The options of the file at a path with a text. -/
def ofFileText (path text : String) : Except ConfigError Options :=
  match Json.read (Text.ofFile text) with
  | .error .malformed => .error (.notJson path)
  | .error .longNumber => .error (.longNumber path)
  | .error .tooDeep => .error (.tooDeep path)
  | .ok (.object members) => ofJson (.object members)
  | .ok _ => .error (.notObject path)

end Options

end SdlTypes
