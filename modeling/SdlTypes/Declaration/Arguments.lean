import SdlTypes.Declaration
import SdlTypes.Resolver

/-!
# Types of arguments

Every field that has arguments gets a declaration of its own for them:

```
export type QueryuserArgs = {
  id: Scalars['ID'];
};
```
-/

namespace SdlTypes

namespace Arguments

/-- The declaration for the arguments of one field. -/
def declaration (r : Resolver) (typeName : String) (field : FieldProperty) : Declaration where
  exported := !r.options.noExport
  keyword := .type
  name := r.argumentsTypeName typeName field.name
  body := .properties [] (field.arguments.map fun a => a.line r.options.immutableTypes false)

/-- The declarations for the arguments of the fields of a type, in the order of the fields. -/
def declarations (r : Resolver) (typeName : String) (fields : List FieldProperty) :
    List Declaration :=
  if r.options.onlyEnums then []
  else (fields.filter fun f => !f.arguments.isEmpty).map (declaration r typeName)

end Arguments

end SdlTypes
