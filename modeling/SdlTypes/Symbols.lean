import SdlTypes.Symbols.Enums
import SdlTypes.Symbols.Scalars

/-!
# Symbol tables

The tables that a run looks names up in: scalars, enums, and the directives that give types to
arguments and input fields. They are built once, from the schema and the options.
-/

namespace SdlTypes

/-- The tables of a run. -/
structure SymbolTables where
  scalars : OrderedMap MappedType
  enums : OrderedMap EnumSymbol
  directives : OrderedMap MappedType

namespace SymbolTables

/-- The table of the directives that give types. -/
def directiveTable (o : Options) : OrderedMap MappedType :=
  o.directiveMappings.mapWithKey fun name pointer =>
    .parse pointer name (o.directiveMappingSuffix.getD "")

/-- The function on names: the given one, or else the convention of the options. -/
def conversion (o : Options) : Option (String → String) → Except ConfigError (String → String)
  | some convert => .ok convert
  | none => Convention.apply <$> Convention.ofSpelling o.namingConvention

/-- The tables for a schema. Names are converted by the given function, or else by the
convention of the options, which is looked at when the table of scalars stands. -/
def build (s : Schema) (o : Options) (convert : Option (String → String)) :
    Except TableError SymbolTables := do
  let scalars ← (Scalars.table s o).mapError .config
  let convert ← (conversion o convert).mapError .config
  let enums ← Enums.table s o convert
  return ⟨scalars, enums, directiveTable o⟩

end SymbolTables

end SdlTypes
