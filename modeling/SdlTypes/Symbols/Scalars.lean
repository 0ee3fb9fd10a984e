import SdlTypes.ConfigError
import SdlTypes.MappedType
import SdlTypes.Options
import SdlTypes.Schema

/-!
# Scalars

The table of scalars maps every scalar of a schema to the type it is written as. The built-in
scalars come first and have types of their own; the custom ones follow in the order of the
schema and have the type that is configured, or the one for scalars that are not. Without a
schema the configured scalars follow in the order of the options.
-/

namespace SdlTypes

namespace Scalars

/-- The types of the built-in scalars. -/
def defaults : List (String × String) :=
  [("ID", "string"), ("String", "string"), ("Boolean", "boolean"), ("Int", "number"),
    ("Float", "number")]

/-- A built-in scalar in the table. An empty configuration counts as none. -/
def builtInEntry (o : Options) (name type : String) : String × MappedType :=
  (name, match o.scalars.find? name with
    | some pointer => if pointer = "" then .inline type else .parse pointer name ""
    | none => .inline type)

/-- A custom scalar in the table. Without a configuration it may be refused. -/
def customEntry (o : Options) (name : String) : Except ConfigError (String × MappedType) :=
  match o.scalars.find? name with
  | some pointer => .ok (name, .parse pointer name "")
  | none =>
    if o.strictScalars then .error (.unknownScalar name)
    else .ok (name, .inline o.defaultScalarType)

/-- The built-in scalars in the table. -/
def builtInEntries (o : Options) : List (String × MappedType) :=
  defaults.map fun (name, type) => builtInEntry o name type

/-- The table of the scalars of a schema. -/
def table (s : Schema) (o : Options) : Except ConfigError (OrderedMap MappedType) := do
  let custom ← s.customScalars.mapM (customEntry o)
  return .ofList (builtInEntries o ++ custom)

/-- The table of the configured scalars, for want of a schema. -/
def configured (o : Options) : OrderedMap MappedType :=
  o.scalars.entries.foldl (fun m (name, pointer) => m.insertNew name (.parse pointer name ""))
    (.ofList (builtInEntries o))

end Scalars

/-- The imports that the types of a table need, in its order. -/
def mappedImports (table : OrderedMap MappedType) (typesOnly : Bool) : List ImportStatement :=
  table.values.filterMap (MappedType.importStatement? typesOnly)

end SdlTypes
