import SdlTypes.ConfigError
import SdlTypes.MappedType
import SdlTypes.Naming
import SdlTypes.Options
import SdlTypes.Schema

/-!
# Enum symbols

The table of enums says of each enum that is configured, or has internal values, where it comes
from. An enum from another module keeps the identifier that its own name converts to; what it
is called there is only of interest to its import. For all other enums the table holds the
values of their constants as far as they differ from their names.

`Enums.table` builds the table, `EnumSymbol.imports` gives the statements that bind the
identifiers of enums from other modules. The values of the enums are only read if they count, so
a bad deprecation among them may go unnoticed.
-/

namespace SdlTypes

/-- The reasons why the tables of a run cannot be built. -/
inductive TableError where
  /-- The options do not fit the schema. -/
  | config (error : ConfigError)
  /-- A deprecation of a value of the enum gives a reason that is no text. -/
  | badReason (enumName : String)
  deriving DecidableEq

/-- The text of an error. -/
def TableError.message : TableError → String
  | .config e => e.message
  | .badReason enumName => "A reason for a deprecation in enum " ++ enumName ++ " is no text"

/-- What stands behind the identifier of an enum. -/
inductive EnumTarget where
  /-- An export of another module: what is exported, and the name that is imported, which
  differ where the export is a member of something. -/
  | external (source exported imported : String) (isDefault : Bool)
  /-- A type expression. -/
  | type (expression : String)
  /-- Its own constants, some of them with values given. -/
  | constants (values : OrderedMap Constant)

/-- An entry of the table of enums. -/
structure EnumSymbol where
  identifier : String
  target : EnumTarget

namespace EnumSymbol

/-- Whether the enum comes from another module. -/
def isExternal (e : EnumSymbol) : Bool :=
  match e.target with
  | .external .. => true
  | _ => false

/-- The value that is given for a constant, if any. -/
def constant? (e : EnumSymbol) (name : String) : Option Constant :=
  match e.target with
  | .constants values => values.find? name
  | _ => none

/-- The statements that import an enum, if it comes from another module. A member of an
imported object gets the enum's identifier in a second statement. -/
def imports (typesOnly : Bool) (e : EnumSymbol) : List ImportStatement :=
  match e.target with
  | .external source exported imported isDefault =>
    if isDefault then [MappedType.importOf e.identifier source true typesOnly]
    else if imported ≠ exported then
      [.root (if imported = "" then exported else imported) source typesOnly,
        .member e.identifier exported]
    else if exported ≠ e.identifier then
      [.named (exported ++ " as " ++ e.identifier) source typesOnly]
    else [MappedType.importOf e.identifier source false typesOnly]
  | _ => []

end EnumSymbol

namespace Enums

/-- The identifier of an enum. -/
def identifier (o : Options) (convert : String → String) (name : String) : String :=
  Naming.affixed convert (if o.enumPrefix then o.typesPrefix else "")
    (if o.enumSuffix then o.typesSuffix else "") name

/-- The target of a configured text. Of a renamed export the other name does not matter. -/
def target (pointer name : String) : EnumTarget :=
  let mapped := MappedType.parse pointer name ""
  match mapped.origin with
  | none => .type mapped.type
  | some o =>
    match Text.cut? " as " o.name with
    | some (exported, _) =>
      .external o.source (Text.trim exported) (Text.trim exported) o.isDefault
    | none => .external o.source mapped.type o.name o.isDefault

/-- The symbol of an enum for what is configured. -/
def symbol (o : Options) (convert : String → String) (name : String) :
    EnumPointer → EnumSymbol
  | .type pointer => ⟨identifier o convert name, target pointer name⟩
  | .constants values => ⟨identifier o convert name, .constants values⟩

/-- The configuration with one internal value added. It gives way to a configured value and to
a configured type. -/
def addInternalValue (pointers : OrderedMap EnumPointer) (enumName valueName : String)
    (value : Constant) : OrderedMap EnumPointer :=
  match pointers.find? enumName with
  | some (.type _) => pointers
  | some (.constants values) =>
    pointers.insert enumName (.constants (values.insertNew valueName value))
  | none => pointers.insert enumName (.constants (.ofList [(valueName, value)]))

/-- The internal values of an enum that are not just the names. -/
def internalValues (t : NamedType) : List (String × Constant) :=
  t.values.filterMap fun
    | (name, some value) => if value = .text name then none else some (name, value)
    | (_, none) => none

/-- The configuration with the internal values of all enums added. -/
def withInternalValues (enums : List NamedType) (pointers : OrderedMap EnumPointer) :
    OrderedMap EnumPointer :=
  enums.foldl (fun m t =>
    (internalValues t).foldl (fun m (name, value) => addInternalValue m t.name name value) m)
    pointers

/-- The enums that are configured one by one. -/
def configured (o : Options) : OrderedMap EnumPointer :=
  match o.enumValues with
  | some (.each pointers) => pointers
  | _ => ∅

/-- What is configured for the enums of a schema, together with their internal values. -/
def pointersOf (s : Schema) (o : Options) : Except TableError (OrderedMap EnumPointer) :=
  if o.ignoreEnumValuesFromSchema then .ok (configured o)
  else
    match s.enums.find? fun t => !t.hasSoundValues with
    | some t => .error (.badReason t.name)
    | none => .ok (withInternalValues s.enums (configured o))

/-- The table of the enums of a schema. -/
def table (s : Schema) (o : Options) (convert : String → String) :
    Except TableError (OrderedMap EnumSymbol) :=
  match o.enumValues with
  | some (.module source) =>
    .ok (.ofList (s.enums.map fun t =>
      (t.name, ⟨identifier o convert t.name, .external source t.name t.name false⟩)))
  | _ =>
    let unknown := (configured o).keys.filter fun name => name ∉ s.enums.map NamedType.name
    if unknown ≠ [] then .error (.config (.unknownEnums unknown))
    else (pointersOf s o).map fun pointers => pointers.mapWithKey (symbol o convert)

/-- The imports that the enums of a table need, in its order. -/
def imports (table : OrderedMap EnumSymbol) (typesOnly : Bool) : List ImportStatement :=
  table.values.flatMap (EnumSymbol.imports typesOnly)

end Enums

end SdlTypes
