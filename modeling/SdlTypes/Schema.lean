import SdlTypes.Constant
import SdlTypes.Sdl.BuiltIn

/-!
# Schemas

A schema is the list of its types, each under its own name, and of the directives that were
defined for it. A type remembers the definition it was built from and the extensions of that
definition; `NamedType.source` tells whether these are nodes of a document or stand in for
nodes that no document has.

An enum value has an internal value beside its name, which is the name itself until it is
replaced by `Schema.setInternalValue`.
-/

namespace SdlTypes

open Sdl

/-- Where the definition of a type comes from. -/
inductive TypeSource where
  /-- A document. -/
  | document
  /-- A description of the schema, from which the definition was recovered. -/
  | introspection
  /-- Nowhere: every schema has the type. -/
  | builtIn
  deriving DecidableEq

/-- A type of a schema. -/
structure NamedType where
  definition : TypeDef
  /-- The extensions of the definition in the order of the document. -/
  extensions : List TypeDef
  source : TypeSource
  /-- The values of an enum with their internal values, where they have one. -/
  values : List (String × Option Constant)

namespace NamedType

/-- The name of a type. -/
def name (t : NamedType) : String := t.definition.name

/-- The kind of a type. -/
def kind (t : NamedType) : TypeKind := t.definition.kind

/-- The values of an enum, whose internal values are their names. -/
def namedValues (definition : TypeDef) (extensions : List TypeDef) :
    List (String × Option Constant) :=
  (definition :: extensions).flatMap fun d =>
    d.body.values.map fun v => (v.name, some (.text v.name))

/-- The type that a definition and its extensions describe. -/
def ofDefinition (source : TypeSource) (definition : TypeDef) (extensions : List TypeDef) :
    NamedType :=
  ⟨definition, extensions, source, namedValues definition extensions⟩

/-- The body of a built-in type, of which only the kind is known. -/
def emptyBody : TypeKind → TypeBody
  | .scalar => .scalar
  | .object => .object [] []
  | .interface => .interface [] []
  | .union => .union []
  | .enum => .enum []
  | .input => .input []

/-- A type that every schema has. -/
def builtIn (name : String) (kind : TypeKind) : NamedType :=
  ofDefinition .builtIn ⟨none, name, [], emptyBody kind⟩ []

/-- Whether the values of an enum can be read: no deprecation among them gives a reason that is
no text. -/
def hasSoundValues (t : NamedType) : Bool :=
  (t.definition :: t.extensions).all fun d =>
    d.body.values.all fun v => BuiltIn.isSoundDeprecation v.directives

/-- The description of a type that a document defines. -/
def documentedText (t : NamedType) : Option String :=
  if t.source = .document then t.definition.description else none

end NamedType

/-- A schema. No two of its types have one name. -/
structure Schema where
  /-- The types, those of the document in its order. -/
  types : List NamedType
  /-- The directives that a document defines for the schema. -/
  directives : List DirectiveDef
  nodup : (types.map NamedType.name).Nodup

namespace Schema

/-- The first type of each name. -/
def firstOfEach : List NamedType → List NamedType
  | [] => []
  | t :: rest => t :: (firstOfEach rest).filter fun u => u.name ≠ t.name

theorem nodup_firstOfEach (ts : List NamedType) :
    ((firstOfEach ts).map NamedType.name).Nodup := by
  induction ts with
  | nil => exact List.nodup_nil
  | cons t rest ih =>
    simp only [firstOfEach, List.map_cons, List.nodup_cons]
    constructor
    · intro h
      obtain ⟨u, hu, hn⟩ := List.mem_map.1 h
      simpa [hn] using (List.mem_filter.1 hu).2
    · exact ih.sublist (List.filter_sublist.map _)

/-- The schema with the types of a list; of two with one name the first counts. -/
def ofTypes (types : List NamedType) (directives : List DirectiveDef) : Schema :=
  ⟨firstOfEach types, directives, nodup_firstOfEach types⟩

/-- The type with a name. -/
def find? (s : Schema) (name : String) : Option NamedType :=
  s.types.find? fun t => t.name == name

/-- The directive with a name, if a document defines it. -/
def directive? (s : Schema) (name : String) : Option DirectiveDef :=
  s.directives.find? fun d => d.name == name

/-- Whether a name is that of an enum. -/
def isEnum (s : Schema) (name : String) : Bool :=
  (s.find? name).any fun t => t.kind == .enum

/-- Whether a name is kept for introspection. -/
def isReserved (name : String) : Bool :=
  "__".toList.isPrefixOf name.toList

/-- The names of the scalars that are not built in, in the order of the types. -/
def customScalars (s : Schema) : List String :=
  (s.types.filter fun t => t.kind == .scalar && t.name ∉ BuiltIn.scalars).map NamedType.name

/-- The enums of which a configuration may speak, in the order of the types. -/
def enums (s : Schema) : List NamedType :=
  s.types.filter fun t => t.kind == .enum && !isReserved t.name

/-- Replaces the internal value of an enum value. -/
def setInternalValue (s : Schema) (enumName valueName : String) (value : Option Constant) :
    Schema :=
  { s with
    types := s.types.map fun t =>
      if t.name = enumName then
        { t with values := t.values.map fun p => if p.1 = valueName then (p.1, value) else p }
      else t
    nodup := by
      have : ∀ f : NamedType → NamedType, (∀ t, (f t).name = t.name) →
          (s.types.map f).map NamedType.name = s.types.map NamedType.name := by
        intro f hf
        simp [Function.comp_def, hf]
      rw [this]
      · exact s.nodup
      · intro t
        split <;> rfl }

/-! ## Input objects of which one field is set -/

/-- Whether the directive `oneOf` is among some directives. -/
def marksOneOf (directives : List Directive) : Bool :=
  directives.any fun d => d.name == "oneOf"

/-- Whether an input object takes exactly one of its fields: its definition says so, or the
directives at the node that is looked at. What the schema has under another kind does not; a
name it does not have is judged by the node alone. -/
def isOneOf (type : Option NamedType) (node : List Directive) : Bool :=
  match type with
  | some t => t.kind == .input && (marksOneOf t.definition.directives || marksOneOf node)
  | none => marksOneOf node

end Schema

end SdlTypes
