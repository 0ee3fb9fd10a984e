import SdlTypes.ConfigError
import SdlTypes.Naming.Words

/-!
# Naming conventions

Every identifier that is written goes through one function on names. Options give it as a
`Convention`, by its own name or behind a number sign (`change-case-all#pascalCase`).
-/

namespace SdlTypes

/-- The ways in which names can be spelled. -/
inductive Convention where
  | keep
  | pascal
  | camel
  | snake
  | constant
  | upper
  | lower
  deriving DecidableEq

namespace Convention

/-- All conventions, in the order in which messages list them. -/
def all : List Convention :=
  [keep, pascal, camel, snake, constant, upper, lower]

/-- The name of a convention in options. -/
def name : Convention → String
  | keep => "keep"
  | pascal => "pascalCase"
  | camel => "camelCase"
  | snake => "snakeCase"
  | constant => "constantCase"
  | upper => "upperCase"
  | lower => "lowerCase"

/-- The name as the convention spells it. -/
def apply : Convention → String → String
  | keep => id
  | pascal => Naming.pascalCase
  | camel => Naming.camelCase
  | snake => Naming.snakeCase
  | constant => Naming.constantCase
  | upper => Text.upper
  | lower => Text.lower

/-- What stands behind the last number sign of a text, or all of it. -/
def spellingTail (spelling : String) : String :=
  ((Text.split '#' spelling).getLast?).getD ""

/-- The convention with the name that stands behind the last number sign. -/
def ofSpelling (spelling : String) : Except ConfigError Convention :=
  match all.find? fun c => c.name == spellingTail spelling with
  | some c => .ok c
  | none => .error (.unknownConvention spelling (all.map name))

end Convention

namespace Naming

/-- A name converted, with text put before and after it. -/
def affixed (convert : String → String) (before after name : String) : String :=
  before ++ convert name ++ after

end Naming

end SdlTypes
