/-!
# Constants

The values that enum constants can take: a text, a whole number or a truth value.
-/

namespace SdlTypes

/-- The value of an enum constant. -/
inductive Constant where
  | text (value : String)
  | int (value : Int)
  | bool (value : Bool)
  deriving DecidableEq

end SdlTypes
