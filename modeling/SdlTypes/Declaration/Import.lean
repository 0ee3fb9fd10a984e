/-!
# Import statements

The four kinds of statement that bring names of other modules into scope.
`ImportStatement.text` is a statement as it is written.
-/

namespace SdlTypes

/-- An import of a TypeScript module. Where `typesOnly` is set only types are imported. -/
inductive ImportStatement where
  /-- The default export under a name of one's own. -/
  | default (name source : String) (typesOnly : Bool)
  /-- A named export; the specifier is its name, or `name as other`. -/
  | named (specifier source : String) (typesOnly : Bool)
  /-- The object at the root of a dotted path. -/
  | root (name source : String) (typesOnly : Bool)
  /-- A name for a member of an imported object. -/
  | member (name path : String)
  deriving DecidableEq

namespace ImportStatement

/-- The statement as it is written. -/
def text : ImportStatement → String
  | .default name source true =>
    "import type \x7b default as " ++ name ++ " \x7d from '" ++ source ++ "';"
  | .default name source false => "import " ++ name ++ " from '" ++ source ++ "';"
  | .named specifier source typesOnly =>
    "import" ++ (if typesOnly then " type" else "") ++ " \x7b " ++ specifier ++ " \x7d from '" ++
      source ++ "';"
  | .root name source typesOnly =>
    "import " ++ (if typesOnly then "type " else "") ++ name ++ " from '" ++ source ++ "';"
  | .member name path => "import " ++ name ++ " = " ++ path ++ ";"

end ImportStatement

end SdlTypes
