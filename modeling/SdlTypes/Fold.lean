import SdlTypes.Declaration.Arguments
import SdlTypes.Declaration.MemberComment
import SdlTypes.Fold.Ancestors
import SdlTypes.Symbols

/-!
# Folding a document

The fold walks a document once and turns every definition into statements. A node is written
from its own facts, from its folded children and from the ancestors above it. The stack of
ancestors is the state of the fold: `within` enters a frame, folds what is inside and leaves the
frame again, also when the inside cannot be written.

`Fold.definition` folds one definition and may be called again after an error; `Fold.document`
folds all definitions and stops at the first error. Definitions that options suppress are
walked like all others and then give no statements, so an error inside them is still found.

A definition whose extensions belong to a type of another kind may have members that are none of
its own: input values among fields, or fields among input values. It cannot be folded.
-/

namespace SdlTypes

open Sdl

/-- What a run knows while it folds. -/
structure FoldContext where
  symbols : SymbolTables
  resolver : Resolver

namespace FoldContext

/-- The schema of the run. -/
def schema (c : FoldContext) : Schema := c.resolver.schema

/-- The options of the run. -/
def options (c : FoldContext) : Options := c.resolver.options

/-- The context of a schema with its tables. -/
def ofTables (s : Schema) (o : Options) (symbols : SymbolTables) (convert : String → String) :
    FoldContext :=
  ⟨symbols, ⟨s, symbols.scalars, convert, o⟩⟩

end FoldContext

/-- The reasons why a definition cannot be folded. -/
inductive FoldError where
  /-- The definition has no form in the output. -/
  | construction (error : ConstructionError)
  /-- A member of the definition is of the wrong kind. -/
  | strayMember (name : String)
  deriving DecidableEq

/-- The text of an error. -/
def FoldError.message : FoldError → String
  | .construction e => e.message
  | .strayMember name => "Member " ++ name ++ " does not belong into a definition of this kind"

/-- A step of the fold: it changes the stack of ancestors and gives a result or an error. -/
abbrev Fold (α : Type) := ExceptT FoldError (StateM Ancestors) α

namespace Fold

variable {α : Type}

/-- Runs a step inside a frame, which is left whatever becomes of the step. -/
def within (frame : Frame) (step : Fold α) : Fold α :=
  ExceptT.mk fun ancestors =>
    let (result, after) := step.run (ancestors.enter frame)
    (result, after.leave)

/-- What the ancestors answer at this place. -/
def ask (question : Ancestors → α) : Fold α := do
  return question (← get)

/-- The result of a computation that may find no form for its output. -/
def build (result : Except ConstructionError α) : Fold α :=
  ExceptT.mk (pure (result.mapError .construction))

/-! ## Types -/

/-- The name of the container for types that directives give. -/
def directiveContainer : String := "DirectiveArgumentAndInputFieldMappings"

/-- The text for a named type. The named type of a field may be written inside a wrapper. -/
def namedType (c : FoldContext) (name : String) : Fold String := do
  let input ← ask Ancestors.inInput
  let value ← ask (·.has .inputValue)
  if c.options.wrapFieldDefinitions && !input && !value then
    return "FieldWrapper<" ++ c.resolver.resolve name ++ ">"
  else return c.resolver.resolve name

/-- A fragment without its wrapper if the reference is marked as never null. -/
def markRequired (required : Bool) (f : Fragment) : Fragment :=
  if required then f.unwrapped else f

/-- The fragment for a reference to a type. -/
def typeRef (c : FoldContext) : TypeRef → Fold Fragment
  | .named name required => do
    let input ← ask Ancestors.inInput
    return markRequired required (.nullable (← namedType c name) input)
  | .list element required => do
    let input ← ask Ancestors.inInput
    return markRequired required (.listOf (← typeRef c element) input)

/-! ## Members -/

/-- What is written in place of the type of an argument or input field: what the last of its
directives that is configured gives. -/
def directiveOverride (c : FoldContext) (directives : List Directive) : Option String :=
  (directives.reverse.find? fun d => c.symbols.directives.contains d.name).map fun d =>
    directiveContainer ++ "['" ++ d.name ++ "']"

/-- Whether an argument or input field gets the optional sign. -/
def isOptional (avoid : AvoidOptionals) (v : InputValueDef) : Bool :=
  !avoid.inputValue &&
    (!v.type.required || (!avoid.defaultValue && v.defaultValue.isSome))

/-- Refuses a field that may not be null in an input object of which one field is set. -/
def checkOneOf (c : FoldContext) (p : Property) : Fold Unit := do
  match ← ask Ancestors.nearestDefinition with
  | some ⟨.inputObject, typeName⟩ =>
    if Schema.isOneOf (c.schema.find? typeName) [] then
      build (OneOf.checkNullable typeName p)
  | _ => pure ()

/-- Folds an argument or input field. -/
def inputValue (c : FoldContext) (v : InputValueDef) : Fold Property := do
  let type ← within ⟨.inputValue, v.name⟩ (typeRef c v.type)
  let property : Property :=
    { name := v.name, type, optional := isOptional c.options.avoidOptionals v
      required := v.type.required, comment := Comment.ofMember 1 v.description v.directives
      override := directiveOverride c v.directives }
  checkOneOf c property
  return property

/-- Folds a field: its arguments first, then its type. -/
def field (c : FoldContext) (f : FieldDef) : Fold FieldProperty := do
  let (arguments, type) ← within ⟨.field, f.name⟩ do
    let arguments ← f.arguments.mapM (inputValue c)
    return (arguments, ← typeRef c f.type)
  return {
    name := f.name, type
    optional := !c.options.avoidOptionals.field && !f.type.required
    required := f.type.required, comment := Comment.ofMember 1 f.description f.directives
    override :=
      if c.options.wrapEntireFieldDefinitions then
        some ("EntireFieldWrapper<" ++ type.render ++ ">")
      else none
    arguments }

/-- Folds a member of an object or interface. -/
def fieldMember (c : FoldContext) : Member → Fold FieldProperty
  | .field f => field c f
  | .input v => throw (.strayMember v.name)

/-- Folds a member of an input object. -/
def inputMember (c : FoldContext) : Member → Fold Property
  | .input v => inputValue c v
  | .field f => throw (.strayMember f.name)

/-! ## Definitions -/

/-- A declaration of a type definition. -/
def declaration (c : FoldContext) (d : TypeDef) (keyword : Keyword) (name : String)
    (body : Body) : Declaration where
  exported := !c.options.noExport
  keyword := keyword
  name := name
  comment := d.description.getD ""
  body := body

/-- The property that tells the types of objects apart. -/
def typenameLine (o : Options) (name : String) : List Line :=
  if o.skipTypename then []
  else
    [{ readonly := o.immutableTypes, name := "__typename", optional := !o.nonOptionalTypename
       type := "'" ++ name ++ "'" }]

/-- The line of a folded member. -/
def memberLine (c : FoldContext) (p : Property) : Line :=
  p.line c.options.immutableTypes false

/-- The declarations of an object or interface: its own, then those of its arguments. -/
def withArguments (c : FoldContext) (d : TypeDef) (keyword : Keyword) (lines : List Line)
    (fields : List FieldProperty) : List Statement :=
  let interfaces := d.body.interfaces.map fun name => c.resolver.convertName name
  let own := declaration c d keyword (c.resolver.convertName d.name)
    (.properties interfaces (lines ++ fields.map fun f => memberLine c f.toProperty))
  (own :: Arguments.declarations c.resolver d.name fields).map .declare

/-- Folds an object type. -/
def object (c : FoldContext) (d : TypeDef) : Fold (List Statement) := do
  let fields ← within ⟨.object, d.name⟩
    (d.body.members.mapM (fieldMember c))
  if c.options.suppressesOutput then return []
  return withArguments c d .type (typenameLine c.options d.name) fields

/-- Folds an interface. One that implements others is an intersection, which only a type can
be. -/
def interface (c : FoldContext) (d : TypeDef) : Fold (List Statement) := do
  let fields ← within ⟨.interface, d.name⟩
    (d.body.members.mapM (fieldMember c))
  if c.options.suppressesOutput then return []
  return withArguments c d (if d.body.interfaces.isEmpty then .interface else .type) [] fields

/-- Folds a union. -/
def union (c : FoldContext) (d : TypeDef) : Fold (List Statement) := do
  let members ← within ⟨.union, d.name⟩
    (pure (d.body.types.map fun name => .reference (c.resolver.resolveUnionMember name)))
  if c.options.suppressesOutput then return []
  let other := if c.options.futureProofUnions then [.other c.options.immutableTypes] else []
  return [.declare (declaration c d .type (c.resolver.convertName d.name)
    (.union (members ++ other)))]

/-- Folds an input object. -/
def input (c : FoldContext) (d : TypeDef) : Fold (List Statement) := do
  let fields ← within ⟨.inputObject, d.name⟩
    (d.body.members.mapM (inputMember c))
  if c.options.onlyEnums then return []
  let body ←
    if Schema.isOneOf (c.schema.find? d.name) d.directives then
      Body.oneOf <$> build (OneOf.arms d.name fields c.options.immutableTypes)
    else pure (.properties [] (fields.map (memberLine c)))
  return [.declare (declaration c d .type (c.resolver.convertName d.name) body)]

/-- The value that is written for an enum constant. -/
def constantValue (symbol : Option EnumSymbol) (name : String) : Constant :=
  (symbol.bind fun s => s.constant? name).getD (.text name)

/-- The constant for an enum value. -/
def enumerator (c : FoldContext) (symbol : Option EnumSymbol) (v : EnumValueDef) :
    Enumerator where
  comment := Comment.ofMember 1 v.description v.directives
  name := c.resolver.convertName v.name false false
  value := constantValue symbol v.name

/-- Folds an enum. One from another module is passed on, if anything is exported. -/
def enum (c : FoldContext) (d : TypeDef) : Fold (List Statement) := do
  let symbol := c.symbols.enums.find? d.name
  let values ← within ⟨.enum, d.name⟩ (pure (d.body.values.map (enumerator c symbol)))
  match symbol.filter EnumSymbol.isExternal with
  | some s =>
    if c.options.noExport then return []
    else return [.reexport s.identifier c.options.useTypeImports]
  | none =>
    let name := c.resolver.enumName d.name
    if c.options.enumsAsTypes then
      return [.declare (declaration c d .type name (.literals values))]
    else return [.declare (declaration c d .enum name (.enumerators values))]

/-- Folds a definition. What is no type definition, or a scalar, gives no statements. -/
def definition (c : FoldContext) : Definition → Fold (List Statement)
  | .type d =>
    match d.kind with
    | .object => object c d
    | .interface => interface c d
    | .union => union c d
    | .enum => enum c d
    | .input => input c d
    | .scalar => pure []
  | _ => pure []

/-- Folds all definitions of a document. -/
def document (c : FoldContext) (d : Document) : Fold (List (List Statement)) :=
  d.definitions.mapM (definition c)

end Fold

end SdlTypes
