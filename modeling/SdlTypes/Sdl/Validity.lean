import SdlTypes.Sdl.BuiltIn
import SdlTypes.Sdl.Places

/-!
# Valid documents

The rules that a document has to keep before a schema is built from it. They look at the
document alone: names are unique and known, directives are used where they may be and with the
arguments they have, extensions extend something of their own kind. What a schema makes of the
types is not asked; a union of scalars is as valid as an object without fields.

A directive that the document defines replaces the built-in one of its name in all rules.
-/

namespace SdlTypes.Sdl.Document

/-- The definition of a directive, of the document before a built-in one. -/
def directive? (d : Document) (name : String) : Option DirectiveDef :=
  (d.directives ++ BuiltIn.directives).find? fun definition => definition.name == name

/-- Whether an argument has to be given. -/
def isRequired (v : InputValueDef) : Bool :=
  v.type.required && v.defaultValue.isNone

/-! ## Names that are unique -/

/-- The document defines the schema at most once. -/
def LoneSchema (d : Document) : Prop :=
  d.schemas.length ≤ 1

/-- Every value of an enum, of its definition or an extension, with the enum's name. -/
def enumValueNames (d : Document) : List (String × String) :=
  (d.types ++ d.extensions).flatMap fun t => t.body.values.map fun v => (t.name, v.name)

/-- Every member of a type, of its definition or an extension, with the type's name. -/
def memberNames (d : Document) : List (String × String) :=
  (d.types ++ d.extensions).flatMap fun t => t.body.members.map fun m => (t.name, m.name)

/-- The lists of names of arguments that fields and directives define. -/
def argumentDefNames (d : Document) : List (List String) :=
  (d.types ++ d.extensions).flatMap (fun t => t.body.members.map fun m =>
    m.asField.arguments.map InputValueDef.name) ++
    d.directives.map fun definition => definition.arguments.map InputValueDef.name

/-- No name stands for two things. -/
def UniqueNames (d : Document) : Prop :=
  (d.operationTypes.map Prod.fst).Nodup ∧ (d.types.map TypeDef.name).Nodup ∧
    d.enumValueNames.Nodup ∧ d.memberNames.Nodup ∧ (∀ names ∈ d.argumentDefNames, names.Nodup) ∧
    (d.directives.map DirectiveDef.name).Nodup

/-- No argument is given twice, and no field of an object value. -/
def UniqueArguments (d : Document) : Prop :=
  (∀ arguments ∈ d.argumentLists, (arguments.map Prod.fst).Nodup) ∧
    ∀ v ∈ d.values, ∀ names ∈ v.objectNames, names.Nodup

/-! ## Names that are known -/

/-- Every type name is that of a type of the document. Type system definitions may also use
built-in types. -/
def KnownTypes (d : Document) : Prop :=
  (∀ name ∈ d.typeNames, name ∈ d.types.map TypeDef.name ∨ (BuiltIn.kind? name).isSome) ∧
    ∀ name ∈ d.executableTypeNames, name ∈ d.types.map TypeDef.name

/-- An extension extends a type of the document that is of its own kind. -/
def PossibleExtensions (d : Document) : Prop :=
  ∀ e ∈ d.extensions, ∃ t ∈ d.types, t.name = e.name ∧ t.kind = e.kind

/-! ## Directives -/

/-- A directive is used in one of its places. -/
def KnownDirectives (d : Document) : Prop :=
  ∀ p ∈ d.places, ∀ use ∈ p.directives,
    ∃ definition ∈ d.directive? use.name, p.location ∈ definition.locations

/-- The names of the directives used at a place that may not be repeated. -/
def singleUses (d : Document) (p : Place) : List String :=
  (p.directives.map Directive.name).filter fun name =>
    (d.directive? name).any fun definition => !definition.repeatable

/-- The directives that may not be repeated, each with the group of places it is used in. -/
def groupedUses (d : Document) : List (PlaceGroup × String) :=
  (d.places.filter fun p => p.group ≠ .node).flatMap fun p =>
    (d.singleUses p).map fun name => (p.group, name)

/-- A directive that may not be repeated is used once at a node, and once over a type, a
directive or the schema with all extensions. -/
def UniqueDirectives (d : Document) : Prop :=
  (∀ p ∈ d.places, (d.singleUses p).Nodup) ∧ d.groupedUses.Nodup

/-- A directive is given arguments it has, and all that it requires. -/
def MatchingArguments (d : Document) : Prop :=
  ∀ use ∈ d.directiveUses, ∀ definition ∈ d.directive? use.name,
    (∀ a ∈ use.arguments, a.1 ∈ definition.arguments.map InputValueDef.name) ∧
      ∀ v ∈ definition.arguments, isRequired v → v.name ∈ use.arguments.map Prod.fst

/-! ## All rules -/

/-- The document keeps all rules. -/
def Valid (d : Document) : Prop :=
  d.LoneSchema ∧ d.UniqueNames ∧ d.UniqueArguments ∧ d.KnownTypes ∧ d.PossibleExtensions ∧
    d.KnownDirectives ∧ d.UniqueDirectives ∧ d.MatchingArguments

instance (d : Document) : Decidable d.LoneSchema :=
  inferInstanceAs (Decidable (_ ≤ _))

instance (d : Document) : Decidable d.UniqueNames :=
  inferInstanceAs (Decidable (_ ∧ _))

instance (d : Document) : Decidable d.UniqueArguments :=
  inferInstanceAs (Decidable (_ ∧ _))

instance (d : Document) : Decidable d.KnownTypes :=
  inferInstanceAs (Decidable (_ ∧ _))

instance (d : Document) : Decidable d.PossibleExtensions :=
  inferInstanceAs (Decidable (∀ _ ∈ _, _))

instance (d : Document) : Decidable d.KnownDirectives :=
  inferInstanceAs (Decidable (∀ _ ∈ _, _))

instance (d : Document) : Decidable d.UniqueDirectives :=
  inferInstanceAs (Decidable (_ ∧ _))

instance (d : Document) : Decidable d.MatchingArguments :=
  inferInstanceAs (Decidable (∀ _ ∈ _, _))

instance (d : Document) : Decidable d.Valid :=
  inferInstanceAs (Decidable (_ ∧ _))

end SdlTypes.Sdl.Document
