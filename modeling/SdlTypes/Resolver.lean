import SdlTypes.MappedType
import SdlTypes.Naming
import SdlTypes.Options
import SdlTypes.Schema

/-!
# Resolving names

A reference to a type is written as the identifier under which the type is declared. Scalars
are members of one container type, enums have their own rule for what is put around a name, and
every other name, known or not, is converted in the same way.
-/

namespace SdlTypes

/-- What is needed to resolve a name. -/
structure Resolver where
  schema : Schema
  scalars : OrderedMap MappedType
  /-- The naming convention. -/
  convert : String → String
  options : Options

namespace Resolver

/-- The member of the container for scalars. -/
def scalarReference (name : String) : String :=
  "Scalars['" ++ name ++ "']"

/-- A name converted, with the text before and after type names where it is asked for. -/
def convertName (r : Resolver) (name : String) (before : Bool := true) (after : Bool := true) :
    String :=
  Naming.affixed r.convert (if before then r.options.typesPrefix else "")
    (if after then r.options.typesSuffix else "") name

/-- The identifier of an enum. -/
def enumName (r : Resolver) (name : String) : String :=
  r.convertName name r.options.enumPrefix r.options.enumSuffix

/-- The identifier for a reference to a type. -/
def resolve (r : Resolver) (name : String) : String :=
  if r.scalars.contains name then scalarReference name
  else if r.schema.isEnum name then r.enumName name
  else r.convertName name

/-- The identifier for a member of a union. -/
def resolveUnionMember (r : Resolver) (name : String) : String :=
  if r.scalars.contains name then scalarReference name else r.convertName name

/-- The name of the type of a field's arguments. -/
def argumentsTypeName (r : Resolver) (typeName fieldName : String) : String :=
  r.convertName (typeName ++ (if r.options.addUnderscoreToArgsType then "_" else "") ++
    r.convertName fieldName false false ++ "Args")

end Resolver

end SdlTypes
