import SdlTypes.Text.Basic
import SdlTypes.Text.Quoted

/-!
# Configuration errors

What can be wrong with the options of a run, on their own or against a schema. The wording of
each error is `ConfigError.message`.
-/

namespace SdlTypes

/-- The causes for which a configuration is rejected. -/
inductive ConfigError where
  /-- The naming convention is none of the `known` ones. -/
  | unknownConvention (spelling : String) (known : List String)
  /-- A custom scalar has no mapping although every one must have one. -/
  | unknownScalar (name : String)
  /-- Enum values are given for names that are no enums of the schema. -/
  | unknownEnums (names : List String)
  /-- An option does not exist, is given twice, or has a value of the wrong form. -/
  | invalidOptions
  /-- The option file holds no JSON. -/
  | notJson (path : String)
  /-- A whole number in the option file has too many digits. -/
  | longNumber (path : String)
  /-- Arrays and objects of the option file stand too deep inside one another. -/
  | tooDeep (path : String)
  /-- The option file holds a JSON value that is no object. -/
  | notObject (path : String)
  deriving DecidableEq

/-- The text of an error. What a reader of options says in detail is not part of it. -/
def ConfigError.message : ConfigError → String
  | .unknownConvention spelling known =>
    "Unknown naming convention " ++ Text.inspected spelling ++ "; expected one of " ++
      Text.join ", " known
  | .unknownScalar name =>
    "Unknown scalar type " ++ name ++
      ". Please override it using the \"scalars\" configuration field!"
  | .unknownEnums names =>
    "Invalid 'enumValues' mapping! The following types do not exist in your GraphQL schema: " ++
      Text.join ", " names
  | .invalidOptions => "Invalid plugin configuration:"
  | .notJson path => "Config file " ++ path ++ " is not valid JSON"
  | .longNumber path => "Config file " ++ path ++ " holds a number with too many digits"
  | .tooDeep path => "Config file " ++ path ++ " is nested too deep"
  | .notObject path => "Config file " ++ path ++ " must contain a JSON object"

end SdlTypes
