import SdlTypes.Sdl.Document
import SdlTypes.Sdl.Grammar.Reader

/-!
# The grammar of documents

`Document.parse?` reads a text as a document or finds that it is none. There is a reader for
everything that a document may hold; what can be repeated is a `Part`.

Lists, objects, list types and selection sets may be nested in one another up to
`nestingLimit`. The readers of these take the `room` that is left at their place.
-/

namespace SdlTypes.Sdl

namespace Grammar

open SdlTypes.Sdl.Reader SdlTypes.Sdl.Part

/-! ## Types and values -/

/-- How deep lists, objects, list types and selection sets may be nested in one another. -/
def nestingLimit : Nat := 200

/-- Reads a name that has to be a given word. -/
def keyword (word : String) : Reader Unit := do
  if (← name) ≠ word then fail

/-- Reads a word if it is there. -/
def optionalKeyword (word : String) : Reader Bool := do
  return (← optionalToken fun t => if t = .name word then some () else none).isSome

/-- Reads a description if there is one. -/
def description : Reader (Option String) :=
  optionalToken fun
    | .string s => some s
    | _ => none

/-- Reads the mark that may follow a reference. -/
def withMark (t : TypeRef) : Reader TypeRef := do
  if ← optionalMark '!' then return t.marked else return t

/-- Reads a reference to a type. -/
def typeRefWithin (room : Nat) : Reader TypeRef := do
  if ← optionalMark '[' then
    match room with
    | 0 => fail
    | inside + 1 =>
      let t ← typeRefWithin inside
      mark ']'
      withMark (.list t false)
  else withMark (.named (← name) false)

/-- Reads a reference to a type that stands in nothing else. -/
def typeRef : Reader TypeRef :=
  typeRefWithin nestingLimit

/-- The value that a name writes. -/
def nameValue (n : String) : Value :=
  if n = "true" then .boolean true
  else if n = "false" then .boolean false
  else if n = "null" then .null
  else .enum n

/-- The value that a token writes. -/
def tokenValue? : Token → Option Value
  | .int digits => some (.int digits)
  | .float digits => some (.float digits)
  | .string text => some (.string text)
  | .name n => some (nameValue n)
  | _ => none

/-- Reads a variable, which may not stand in a constant. -/
def variableName (const : Bool) : Part Value where
  read := do
    mark '$'
    if const then fail
    return .var (← name)
  progresses := (progresses_mark _).first _

/-- Reads a field of an object. -/
def objectField (value : Part Value) : Part (String × Value) where
  read := do
    let n ← name
    mark ':'
    return (n, ← value.read)
  progresses := progresses_name.first _

/-- Reads a list of values between brackets. -/
def list (value : Part Value) : Part Value where
  read := do
    mark '['
    return .list (← untilMark ']' value)
  progresses := (progresses_mark _).first _

/-- Reads an object of values between braces. -/
def object (value : Part Value) : Part Value where
  read := do
    mark '{'
    return .object (← untilMark '}' (objectField value))
  progresses := (progresses_mark _).first _

/-- Reads a value. A constant one holds no variables. -/
def value (const : Bool) : Nat → Part Value
  | 0 => choose (.punct '$') (variableName const) ⟨token tokenValue?, progresses_token _⟩
  | inside + 1 =>
    choose (.punct '[') (list (value const inside))
      (choose (.punct '{') (object (value const inside))
        (choose (.punct '$') (variableName const) ⟨token tokenValue?, progresses_token _⟩))

/-- Reads arguments, if there are any. -/
def arguments (room : Nat) (const : Bool) : Reader (List (String × Value)) :=
  optionalEnclosed '(' ')' (objectField (value const room))

/-- Reads a directive. -/
def directive (room : Nat) (const : Bool) : Part Directive where
  read := do
    mark '@'
    let n ← name
    return ⟨n, ← arguments room const⟩
  progresses := (progresses_mark _).first _

/-- Reads directives, if there are any. -/
def directivesWithin (room : Nat) (const : Bool) : Reader (List Directive) :=
  whileMark '@' (directive room const)

/-- Reads directives that stand in nothing else, if there are any. -/
def directives (const : Bool) : Reader (List Directive) :=
  directivesWithin nestingLimit const

/-! ## Operations and fragments -/

/-- Reads what follows the type condition of a fragment in place. -/
def inlineFragment (room : Nat) (selections : Part (List Selection))
    (condition : Option String) : Reader Selection := do
  return .inline condition (← directivesWithin room false) (← selections.read)

/-- Reads what follows the dots of a fragment. -/
def spread (room : Nat) (selections : Part (List Selection)) : Reader Selection := do
  match ← optionalToken nameOf? with
  | none => inlineFragment room selections none
  | some "on" => inlineFragment room selections (some (← name))
  | some n => return .spread n (← directivesWithin room false)

/-- Reads what follows the name of a field. -/
def selectedField (room : Nat) (selections : Part (List Selection))
    (responseName : Option String) (n : String) : Reader Selection := do
  let args ← arguments room false
  let ds ← directivesWithin room false
  return .field responseName n args ds (← ifAt '{' selections.read [])

/-- Reads one selection. -/
def selection (room : Nat) (selections : Part (List Selection)) : Part Selection :=
  choose .spread
    ⟨do let _ ← token some; spread room selections, (progresses_token _).first _⟩
    ⟨do
      let n ← name
      if ← optionalMark ':' then selectedField room selections (some n) (← name)
      else selectedField room selections none n,
      progresses_name.first _⟩

/-- Reads a selection set: selections between braces, of which there may be none. -/
def selectionSetWithin : Nat → Part (List Selection)
  | 0 => ⟨fail, progresses_fail⟩
  | inside + 1 =>
    ⟨do mark '{'; untilMark '}' (selection inside (selectionSetWithin inside)),
      (progresses_mark _).first _⟩

/-- Reads the selection set of an operation or a fragment. -/
def selectionSet : Part (List Selection) :=
  selectionSetWithin nestingLimit

/-- Reads the kind of an operation. -/
def operationKind : Reader OperationKind :=
  token fun
    | .name "query" => some .query
    | .name "mutation" => some .mutation
    | .name "subscription" => some .subscription
    | _ => none

/-- Reads a default value, if there is one. -/
def defaultValue : Reader (Option Value) := do
  if ← optionalMark '=' then return some (← (value true nestingLimit).read) else return none

/-- Reads the definition of a variable. -/
def variableDef : Part VariableDef where
  read := do
    let _ ← description
    mark '$'
    let n ← name
    mark ':'
    return { name := n, type := ← typeRef, defaultValue := ← defaultValue,
             directives := ← directives true }
  progresses := .second _ fun _ => (progresses_mark _).first _

/-- Reads an operation from what follows its kind. -/
def operation (description : Option String) (kind : OperationKind) : Reader Operation := do
  return { description, kind, name := ← optionalToken nameOf?,
           parameters := ← optionalEnclosed '(' ')' variableDef,
           directives := ← directives false, selections := ← selectionSet.read }

/-- An operation that is only a selection set. -/
def shorthand (selections : List Selection) : Operation :=
  { description := none, kind := .query, name := none, parameters := [], directives := [],
    selections }

/-- Reads a fragment from what follows its keyword; it may not be named `on`. -/
def fragment (description : Option String) : Reader Fragment := do
  let n ← name
  if n = "on" then fail
  keyword "on"
  return { description, name := n, condition := ← name, directives := ← directives false,
           selections := ← selectionSet.read }

/-! ## Type system definitions -/

/-- Reads an argument definition or an input field. -/
def inputValueDef : Part InputValueDef where
  read := do
    let description ← description
    let n ← name
    mark ':'
    return { description, name := n, type := ← typeRef, defaultValue := ← defaultValue,
             directives := ← directives true }
  progresses := .second _ fun _ => progresses_name.first _

/-- Reads argument definitions, if there are any. -/
def argumentDefs : Reader (List InputValueDef) :=
  optionalEnclosed '(' ')' inputValueDef

/-- Reads a field definition. -/
def fieldDef : Part FieldDef where
  read := do
    let description ← description
    let n ← name
    let args ← argumentDefs
    mark ':'
    return { description, name := n, arguments := args, type := ← typeRef,
             directives := ← directives true }
  progresses := .second _ fun _ => progresses_name.first _

/-- Reads the definition of an enum value, which may not look like another literal. -/
def enumValueDef : Part EnumValueDef where
  read := do
    let description ← description
    let n ← name
    if n = "true" ∨ n = "false" ∨ n = "null" then fail
    return { description, name := n, directives := ← directives true }
  progresses := .second _ fun _ => progresses_name.first _

/-- Reads the name of a type. -/
def typeName : Part String :=
  ⟨name, progresses_name⟩

/-- Reads the interfaces that a type implements, if there are any. -/
def implementedInterfaces : Reader (List String) := do
  if ← optionalKeyword "implements" then delimited '&' typeName else return []

/-- Reads the types of a union, if there are any. -/
def unionTypes : Reader (List String) := do
  if ← optionalMark '=' then delimited '|' typeName else return []

/-- Reads the fields of an object or interface, if there are any. -/
def fieldDefs : Reader (List Member) :=
  optionalEnclosed '{' '}' (fieldDef.map Member.field)

/-- Reads a type definition from what follows its keyword. -/
def typeDef (description : Option String) (word : String) : Reader TypeDef := do
  let n ← name
  match word with
  | "scalar" => return ⟨description, n, ← directives true, .scalar⟩
  | "type" =>
    let is ← implementedInterfaces
    return ⟨description, n, ← directives true, .object is (← fieldDefs)⟩
  | "interface" =>
    let is ← implementedInterfaces
    return ⟨description, n, ← directives true, .interface is (← fieldDefs)⟩
  | "union" => return ⟨description, n, ← directives true, .union (← unionTypes)⟩
  | "enum" =>
    return ⟨description, n, ← directives true, .enum (← optionalEnclosed '{' '}' enumValueDef)⟩
  | "input" =>
    return ⟨description, n, ← directives true,
      .input (← optionalEnclosed '{' '}' (inputValueDef.map Member.input))⟩
  | _ => fail

/-- Whether an extension has anything to add. -/
def extendsType (d : TypeDef) : Bool :=
  !d.directives.isEmpty || !d.body.members.isEmpty || !d.body.interfaces.isEmpty ||
    !d.body.types.isEmpty || !d.body.values.isEmpty

/-- Reads the type of one kind of operation. -/
def operationType : Part (OperationKind × String) where
  read := do
    let kind ← operationKind
    mark ':'
    return (kind, ← name)
  progresses := (progresses_token _).first _

/-- Reads a schema definition from what follows its keyword. -/
def schemaDef (description : Option String) : Reader SchemaDef := do
  return { description, directives := ← directives true,
           operations := ← enclosed '{' '}' operationType }

/-- Reads a schema extension from what follows its keywords; it has to add something. -/
def schemaExtension : Reader SchemaDef := do
  let ds ← directives true
  let operations ← optionalEnclosed '{' '}' operationType
  if ds.isEmpty && operations.isEmpty then fail
  return { description := none, directives := ds, operations }

/-- Reads the name of a place. -/
def location : Part Location where
  read := do
    match Location.ofName? (← name) with
    | some l => return l
    | none => fail
  progresses := progresses_name.first _

/-- Reads a directive definition from what follows its keyword. -/
def directiveDef (description : Option String) : Reader DirectiveDef := do
  mark '@'
  let n ← name
  let args ← argumentDefs
  let ds ← directives true
  let repeatable ← optionalKeyword "repeatable"
  keyword "on"
  return { description, name := n, arguments := args, directives := ds, repeatable,
           locations := ← delimited '|' location }

/-- Reads the extension of a directive definition from what follows its keywords; it has to add
directives. -/
def directiveExtension : Reader Definition := do
  mark '@'
  let n ← name
  let ds ← directives true
  if ds.isEmpty then fail
  return .directiveExtension n ds

/-- Reads an extension of a type from what follows its keywords; it has to add something. -/
def typeExtension (word : String) : Reader Definition := do
  let d ← typeDef none word
  if extendsType d then return .typeExtension d else fail

/-- Reads an extension. -/
def extension : Part Definition where
  read := do
    keyword "extend"
    match ← name with
    | "schema" => return .schemaExtension (← schemaExtension)
    | "directive" => directiveExtension
    | word => typeExtension word
  progresses := .second _ fun _ => progresses_name.first _

/-- Reads a definition with its description, if it has one. -/
def described : Part Definition where
  read := do
    let description ← description
    match ← name with
    | "schema" => return .schema (← schemaDef description)
    | "directive" => return .directive (← directiveDef description)
    | "query" => return .operation (← operation description .query)
    | "mutation" => return .operation (← operation description .mutation)
    | "subscription" => return .operation (← operation description .subscription)
    | "fragment" => return .fragment (← fragment description)
    | word => return .type (← typeDef description word)
  progresses := .second _ fun _ => progresses_name.first _

/-- Reads a definition. Extensions and bare selection sets have no description. -/
def definition : Part Definition :=
  choose (.punct '{') (selectionSet.map (.operation ∘ shorthand))
    (choose (.name "extend") extension described)

end Grammar

/-- The document that a text of characters writes. It has at least one definition. -/
def Document.parse? (text : String) : Option Document := do
  if !Text.isPlain text then failure
  let definitions ← Grammar.definition.untilEnd (← Token.scan? text)
  if definitions.isEmpty then none else some ⟨definitions⟩

end SdlTypes.Sdl
