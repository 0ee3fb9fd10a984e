import SdlTypes.Proofs.DeclarationCode
import SdlTypes.Proofs.FoldOutcome
import SdlTypes.Proofs.ImportedEnums

/-!
# Mentions of types

A definition mentions types: the interfaces it implements, the members of a union, the types of
fields, arguments and input fields. `TypeDef.mentions` lists these places in the order in which
their types are written, `Statement.typeTexts` the texts that are written there. What a module may
write for a name is said by `Module.Names`: a member of the container of scalars, the identifier
that the definition of that name declares, or one that an import of the enum binds. Around it may
stand lists and helper types that the module declares (`Module.Writes`), and in its place a member
of the container of types that directives give (`Module.Shows`). A module is closed
(`Module.Closed`) if all its texts show what their places mention.

The fold goes through the places one by one. `FoldContext.shows_typeResult` is its step: if a
module names the types that a definition mentions, then what the definition becomes shows them.
The last section says that what a module consists of stands in its text.
-/

namespace SdlTypes

open Sdl

/-! ## Places -/

/-- A place in a definition where a type is written. -/
inductive Mention where
  /-- An interface, a member of a union, or an enum that is passed on: its name alone. -/
  | named (name : String)
  /-- The type of a field. -/
  | field (name : String)
  /-- The type of an argument or input field, for which one of its directives may stand. -/
  | value (name : String) (directives : List String)
  /-- A text that names no type. -/
  | literal (text : String)
  deriving DecidableEq

namespace Sdl

/-- The place of an argument or input field. -/
def InputValueDef.mention (v : InputValueDef) : Mention :=
  .value v.type.baseName (v.directives.map Directive.name)

/-- The places in members of an object or interface: first the fields, then all arguments. -/
def fieldMentions (ms : List Member) : List Mention :=
  (ms.map fun m => .field m.asField.type.baseName) ++
    ms.flatMap fun m => m.asField.arguments.map InputValueDef.mention

/-- The places in a type definition. -/
def TypeDef.mentions (o : Options) (enums : OrderedMap EnumSymbol) (d : TypeDef) : List Mention :=
  match d.kind with
  | .object =>
    d.body.interfaces.map .named ++ (if o.skipTypename then [] else [.literal ("'" ++ d.name ++ "'")])
      ++ fieldMentions d.body.members
  | .interface => d.body.interfaces.map .named ++ fieldMentions d.body.members
  | .union =>
    d.body.types.map .named ++
      if o.futureProofUnions then [.literal (UnionMember.other o.immutableTypes).text] else []
  | .enum =>
    if (enums.find? d.name).any EnumSymbol.isExternal && !o.noExport then [.named d.name] else []
  | .input => d.body.members.flatMap fun m => m.inputValues.map InputValueDef.mention
  | .scalar => []

/-- The places in a definition. -/
def Definition.mentions (o : Options) (enums : OrderedMap EnumSymbol) : Definition → List Mention
  | .type d => d.mentions o enums
  | _ => []

end Sdl

/-- The types that a body writes. -/
def Body.typeTexts : Body → List String
  | .properties interfaces lines => interfaces ++ lines.map Line.type
  | .union members => members.map UnionMember.text
  | .oneOf arms => arms.map fun a => a.chosen.type
  | .literals _ => []
  | .enumerators _ => []

/-- The types that a statement writes. -/
def Statement.typeTexts : Statement → List String
  | .declare d => d.body.typeTexts
  | .reexport identifier _ => [identifier]

/-- The names of the properties of a declaration. -/
def Declaration.propertyNames (d : Declaration) : List String :=
  match d.body with
  | .properties _ lines => lines.map Line.name
  | _ => []

/-! ## What is written -/

namespace Module

/-- What a module may write for the name of a type: a member of its container of scalars, the
identifier that the type's own definition declares, or one that an import of the enum binds. -/
inductive Names (m : Module) (o : Options) (enums : OrderedMap EnumSymbol) (d : Document) :
    String → String → Prop
  | scalar {name : String} (hc : m.scalars.name = "Scalars")
    (h : m.scalars.propertyNames.count name = 1) : Names m o enums d name ("Scalars['" ++ name ++ "']")
  | declared {t : TypeDef} {declaration : Declaration} {rest : List Statement}
    (h : (.type t, .declare declaration :: rest) ∈ d.definitions.zip m.definitions) :
    Names m o enums d t.name declaration.name
  | imported {name : String} {e : EnumSymbol} {s : ImportStatement} (he : enums.find? name = some e)
    (hs : s ∈ e.imports o.useTypeImports) (hm : s ∈ m.imports) :
    Names m o enums d name s.boundName

/-- The name of a type whose definition begins with a declaration, and the identifier that is
declared. -/
def declaredPair? : Definition × List Statement → Option (String × String)
  | (.type t, .declare declaration :: _) => some (t.name, declaration.name)
  | _ => none

section

variable {m : Module} {o : Options} {enums : OrderedMap EnumSymbol} {d : Document}

theorem names_iff {name text : String} :
    m.Names o enums d name text ↔
      (text = "Scalars['" ++ name ++ "']" ∧ m.scalars.name = "Scalars" ∧
        m.scalars.propertyNames.count name = 1) ∨
      (∃ p ∈ d.definitions.zip m.definitions, declaredPair? p = some (name, text)) ∨
      ∃ e ∈ enums.find? name, ∃ s ∈ e.imports o.useTypeImports,
        s ∈ m.imports ∧ s.boundName = text := by
  constructor
  · intro h
    cases h with
    | scalar hc h => exact .inl ⟨rfl, hc, h⟩
    | declared h => exact .inr (.inl ⟨_, h, rfl⟩)
    | imported he hs hm => exact .inr (.inr ⟨_, he, _, hs, hm, rfl⟩)
  · rintro (⟨rfl, hc, h⟩ | ⟨p, hp, h⟩ | ⟨e, he, s, hs, hm, rfl⟩)
    · exact .scalar hc h
    · unfold declaredPair? at h
      split at h
      · cases h
        exact .declared hp
      · cases h
    · exact .imported he hs hm

instance (name text : String) : Decidable (m.Names o enums d name text) :=
  decidable_of_iff _ names_iff.symm

end

/-- What a module may write for a type with the name inside: the name, or a list or a declared
helper type around it. -/
inductive Writes (m : Module) (o : Options) (enums : OrderedMap EnumSymbol) (d : Document)
    (name : String) : String → Prop
  | name {text : String} (h : m.Names o enums d name text) : Writes m o enums d name text
  | list {text : String} (h : Writes m o enums d name text) :
    Writes m o enums d name ("Array<" ++ text ++ ">")
  | helper {text : String} {t : HelperType} (ht : t ∈ m.helpers) (h : Writes m o enums d name text) :
    Writes m o enums d name (t.name ++ "<" ++ text ++ ">")

/-- What a module may write at a place. For an argument or input field this may be a member of the
container of types that directives give. -/
inductive Shows (m : Module) (o : Options) (enums : OrderedMap EnumSymbol) (d : Document) :
    Mention → String → Prop
  | named {name text : String} (h : m.Names o enums d name text) : Shows m o enums d (.named name) text
  | field {name text : String} (h : m.Writes o enums d name text) :
    Shows m o enums d (.field name) text
  | value {name text : String} {directives : List String} (h : m.Writes o enums d name text) :
    Shows m o enums d (.value name directives) text
  | directive {name use : String} {directives : List String} {container : Declaration}
    (hu : use ∈ directives) (hc : m.directives = some container)
    (h : use ∈ container.propertyNames) :
    Shows m o enums d (.value name directives) (container.name ++ "['" ++ use ++ "']")
  | literal {text : String} : Shows m o enums d (.literal text) text

/-- A module that was made of a document is closed: each text shows what its place mentions. -/
def Closed (m : Module) (o : Options) (enums : OrderedMap EnumSymbol) (d : Document) : Prop :=
  List.Forall₂
    (fun definition statements => List.Forall₂ (m.Shows o enums d) (definition.mentions o enums)
      (statements.flatMap Statement.typeTexts))
    d.definitions m.definitions

/-- A module with a text that does not show the first mention of its definition is not closed. -/
theorem not_closed_of_head? {m : Module} {o : Options} {enums : OrderedMap EnumSymbol}
    {d : Document} {p : Definition × List Statement} (hp : p ∈ d.definitions.zip m.definitions)
    {name text : String} (hmention : (p.1.mentions o enums).head? = some (.named name))
    (htext : (p.2.flatMap Statement.typeTexts).head? = some text)
    (hn : ¬m.Names o enums d name text) : ¬m.Closed o enums d := by
  intro hclosed
  have hshows := List.forall₂_zip hclosed hp
  cases hmentions : p.1.mentions o enums with
  | nil =>
    rw [hmentions] at hmention
    cases hmention
  | cons mention mentions =>
    cases htexts : p.2.flatMap Statement.typeTexts with
    | nil =>
      rw [htexts] at htext
      cases htext
    | cons first texts =>
      rw [hmentions] at hmention hshows
      rw [htexts] at htext hshows
      cases hmention
      cases htext
      cases hshows with
      | cons h _ =>
        cases h with
        | named h => exact hn h

/-- A module provides what definitions that are folded in a context rely on: the helper types
around what they write, and the container of the types that directives give. -/
structure Supports (m : Module) (c : FoldContext) : Prop where
  wrapper : ∀ w : Wrapper, ∃ t ∈ m.helpers, t.name = w.name
  field : c.options.wrapFieldDefinitions = true → ∃ t ∈ m.helpers, t.name = "FieldWrapper"
  entire : c.options.wrapEntireFieldDefinitions = true →
    ∃ t ∈ m.helpers, t.name = "EntireFieldWrapper"
  directives : ∀ name, c.symbols.directives.contains name = true →
    ∃ container, m.directives = some container ∧ container.name = Fold.directiveContainer ∧
      name ∈ container.propertyNames

end Module

/-! ## Types, members -/

namespace FoldContext

open SdlTypes.Module

variable {c : FoldContext} {m : Module} {o : Options} {enums : OrderedMap EnumSymbol} {d : Document}

theorem writes_helper {name text helper : String} (ht : ∃ t ∈ m.helpers, t.name = helper)
    (h : m.Writes o enums d name text) : m.Writes o enums d name (helper ++ "<" ++ text ++ ">") := by
  obtain ⟨t, ht, rfl⟩ := ht
  exact .helper ht h

/-- A type in a nullable position may be written with its wrapper, or without if it is marked. -/
theorem writes_nullable (hm : m.Supports c) {name text : String} (h : m.Writes o enums d name text)
    (required input : Bool) :
    (Fold.markRequired required (.nullable text input)).text = text ∧
      m.Writes o enums d name (Fold.markRequired required (.nullable text input)).render := by
  cases required with
  | true => exact ⟨rfl, h⟩
  | false => exact ⟨rfl, writes_helper (hm.wrapper (.forInput input)) h⟩

/-- A reference is written with its name inside, at whatever depth of lists it stands. -/
theorem writes_fragment (hm : m.Supports c) (leaf : String → String) (input : Bool) (r : TypeRef)
    (h : m.Writes o enums d r.baseName (leaf r.baseName)) :
    m.Writes o enums d r.baseName (r.fragment input leaf).text ∧
      m.Writes o enums d r.baseName (r.fragment input leaf).render := by
  induction r with
  | named name required =>
    obtain ⟨htext, hrender⟩ := writes_nullable hm h required input
    exact ⟨htext.symm ▸ h, hrender⟩
  | list element required ih =>
    have hlist := Writes.list (ih h).2
    obtain ⟨htext, hrender⟩ := writes_nullable hm hlist required input
    exact ⟨htext.symm ▸ hlist, hrender⟩

/-- The type that a directive gives is in the container. -/
theorem shows_directiveOverride (hm : m.Supports c) {name text : String}
    {directives : List Directive} (h : Fold.directiveOverride c directives = some text) :
    m.Shows o enums d (.value name (directives.map Directive.name)) text := by
  obtain ⟨use, hfind, rfl⟩ := Option.map_eq_some_iff.1 h
  have hmem := List.mem_reverse.1 (List.mem_of_find?_eq_some hfind)
  have hconfigured : c.symbols.directives.contains use.name = true := by
    simpa using List.find?_some hfind
  obtain ⟨container, hc, hname, hproperty⟩ := hm.directives use.name hconfigured
  rw [← hname]
  exact .directive (List.mem_map_of_mem hmem) hc hproperty

/-- The type of an argument or input field, whether or not a line shows it as it is. -/
theorem shows_inputProperty (hm : m.Supports c) (input exact : Bool) (v : InputValueDef)
    (h : m.Names o enums d v.type.baseName (c.resolver.resolve v.type.baseName)) :
    m.Shows o enums d v.mention ((c.inputProperty input v).typeText exact) := by
  obtain ⟨htext, hrender⟩ := writes_fragment hm c.resolver.resolve input v.type (.name h)
  unfold Property.typeText
  cases hoverride : (c.inputProperty input v).override with
  | some text => exact shows_directiveOverride hm hoverride
  | none =>
    cases exact with
    | true => exact .value htext
    | false => exact .value hrender

theorem shows_fieldProperty (hm : m.Supports c) (f : FieldDef)
    (h : m.Names o enums d f.type.baseName (c.resolver.resolve f.type.baseName)) :
    m.Shows o enums d (.field f.type.baseName) ((c.fieldProperty f).typeText false) := by
  have hleaf : m.Writes o enums d f.type.baseName (c.fieldLeaf f.type.baseName) := by
    unfold fieldLeaf
    split_ifs with hwrap
    · exact writes_helper (hm.field hwrap) (.name h)
    · exact .name h
  have hrender := (writes_fragment hm c.fieldLeaf false f.type hleaf).2
  have hoverride : (c.fieldProperty f).override =
      if c.options.wrapEntireFieldDefinitions then
        some ("EntireFieldWrapper<" ++ (f.type.fragment false c.fieldLeaf).render ++ ">")
      else none := rfl
  unfold Property.typeText
  rw [hoverride]
  by_cases hwrap : c.options.wrapEntireFieldDefinitions = true
  · rw [if_pos hwrap]
    exact .field (writes_helper (hm.entire hwrap) hrender)
  · rw [if_neg hwrap]
    exact .field hrender

/-! ## Definitions -/

/-- The types that the declarations for arguments write. -/
theorem typeTexts_argumentDeclarations (ho : c.options.onlyEnums = false) (typeName : String)
    (fields : List FieldProperty) :
    ((Arguments.declarations c.resolver typeName fields).map Statement.declare).flatMap
        Statement.typeTexts =
      fields.flatMap fun f => f.arguments.map fun a => a.typeText false := by
  rw [List.flatMap_map]
  refine Arguments.flatMap_declarations ho typeName (fun f => ?_) fields
  change List.map _ (List.map _ f.arguments) = _
  rw [List.map_map]
  rfl

/-- What a module has to name for a definition: interfaces and members of a union by the names they
are given there, every type by the name it is resolved to, and an enum from another module by its
identifier. -/
structure NamedIn (c : FoldContext) (m : Module) (d : Document) (t : TypeDef) : Prop where
  resolved : ∀ n ∈ t.typeNames, m.Names c.options c.symbols.enums d n (c.resolver.resolve n)
  interfaces : ∀ n ∈ t.body.interfaces,
    m.Names c.options c.symbols.enums d n (c.resolver.convertName n)
  types : ∀ n ∈ t.body.types,
    m.Names c.options c.symbols.enums d n (c.resolver.resolveUnionMember n)
  enum : ∀ e, c.symbols.enums.find? t.name = some e → e.isExternal = true →
    m.Names c.options c.symbols.enums d t.name e.identifier

variable {t : TypeDef}

theorem mem_typeNames_of_field {f : FieldDef} (h : Member.field f ∈ t.body.members) :
    f.type.baseName ∈ t.typeNames := by
  refine List.mem_append_right _ (List.mem_flatMap.2 ⟨_, h, ?_⟩)
  exact List.mem_append_right _ (List.mem_singleton_self _)

theorem mem_typeNames_of_argument {f : FieldDef} (h : Member.field f ∈ t.body.members)
    {v : InputValueDef} (hv : v ∈ f.arguments) : v.type.baseName ∈ t.typeNames := by
  refine List.mem_append_right _ (List.mem_flatMap.2 ⟨_, h, ?_⟩)
  exact List.mem_append_left _ (List.mem_map.2 ⟨v, hv, rfl⟩)

theorem mem_typeNames_of_input {v : InputValueDef} (h : Member.input v ∈ t.body.members) :
    v.type.baseName ∈ t.typeNames :=
  List.mem_append_right _ (List.mem_flatMap.2 ⟨_, h, List.mem_singleton_self _⟩)

/-- What an object or interface becomes shows its interfaces, then what is written in front of its
fields, its fields, and the arguments of all fields. -/
theorem shows_withArguments (hm : m.Supports c) (ho : c.options.onlyEnums = false)
    (ht : NamedIn c m d t) {fs : List FieldDef} (hfs : t.body.members = fs.map Member.field)
    (keyword : Keyword) {front : List Mention} {lines : List Line}
    (hfront : List.Forall₂ (m.Shows c.options c.symbols.enums d) front (lines.map Line.type)) :
    List.Forall₂ (m.Shows c.options c.symbols.enums d)
      (t.body.interfaces.map .named ++ front ++ fieldMentions t.body.members)
      ((Fold.withArguments c t keyword lines (fs.map c.fieldProperty)).flatMap
        Statement.typeTexts) := by
  have hmem (f : FieldDef) (hf : f ∈ fs) : Member.field f ∈ t.body.members :=
    hfs ▸ List.mem_map_of_mem hf
  have hinterfaces : List.Forall₂ (m.Shows c.options c.symbols.enums d)
      (t.body.interfaces.map .named) (t.body.interfaces.map fun n => c.resolver.convertName n) :=
    forall₂_map_map fun n hn => .named (ht.interfaces n hn)
  have hfields : List.Forall₂ (m.Shows c.options c.symbols.enums d)
      (fs.map fun f => .field f.type.baseName)
      (fs.map fun f => (c.fieldProperty f).typeText false) :=
    forall₂_map_map fun f hf =>
      shows_fieldProperty hm f (ht.resolved _ (mem_typeNames_of_field (hmem f hf)))
  have harguments : List.Forall₂ (m.Shows c.options c.symbols.enums d)
      (fs.flatMap fun f => f.arguments.map InputValueDef.mention)
      (fs.flatMap fun f => f.arguments.map fun v => (c.inputProperty false v).typeText false) :=
    forall₂_flatMap fun f hf => forall₂_map_map fun v hv =>
      shows_inputProperty hm false false v
        (ht.resolved _ (mem_typeNames_of_argument (hmem f hf) hv))
  have hown : (Fold.withArguments c t keyword lines (fs.map c.fieldProperty)).flatMap
      Statement.typeTexts =
        (t.body.interfaces.map fun n => c.resolver.convertName n) ++ lines.map Line.type ++
          ((fs.map fun f => (c.fieldProperty f).typeText false) ++
            fs.flatMap fun f => f.arguments.map fun v =>
              (c.inputProperty false v).typeText false) := by
    rw [Fold.withArguments, List.map_cons, List.flatMap_cons,
      typeTexts_argumentDeclarations ho, List.flatMap_map]
    change (_ ++ List.map _ (lines ++ List.map _ (List.map _ fs))) ++ _ = _
    rw [List.map_append, List.map_map, List.map_map, ← List.append_assoc, List.append_assoc]
    congr 2
    refine congrArg (fun k => fs.flatMap k) (funext fun f => ?_)
    change List.map _ (f.arguments.map (c.inputProperty false)) = _
    rw [List.map_map]
    rfl
  have hmentions : fieldMentions t.body.members =
      (fs.map fun f => .field f.type.baseName) ++
        fs.flatMap fun f => f.arguments.map InputValueDef.mention := by
    rw [fieldMentions, hfs, List.map_map, List.flatMap_map]
    rfl
  rw [hown, hmentions]
  exact List.rel_append (List.rel_append hinterfaces hfront) (List.rel_append hfields harguments)

theorem shows_unionStatements (ho : c.options.suppressesOutput = false) (ht : NamedIn c m d t)
    (hk : t.kind = .union) :
    List.Forall₂ (m.Shows c.options c.symbols.enums d) (t.mentions c.options c.symbols.enums)
      ((c.unionStatements t).flatMap Statement.typeTexts) := by
  have hmembers : List.Forall₂ (m.Shows c.options c.symbols.enums d) (t.body.types.map .named)
      (t.body.types.map fun n => (UnionMember.reference (c.resolver.resolveUnionMember n)).text) :=
    forall₂_map_map fun n hn => .named (ht.types n hn)
  have hother : List.Forall₂ (m.Shows c.options c.symbols.enums d)
      (if c.options.futureProofUnions then
        [.literal (UnionMember.other c.options.immutableTypes).text] else [])
      ((if c.options.futureProofUnions then [.other c.options.immutableTypes] else []).map
        UnionMember.text) := by
    split_ifs
    · exact .cons .literal .nil
    · exact .nil
  have htexts : (c.unionStatements t).flatMap Statement.typeTexts =
      (c.unionMembers t).map UnionMember.text := by
    rw [unionStatements, ho]
    exact List.append_nil _
  rw [htexts, unionMembers, List.map_append, List.map_map, TypeDef.mentions, hk]
  exact List.rel_append hmembers hother

theorem shows_enumStatements (ht : NamedIn c m d t) (hk : t.kind = .enum) :
    List.Forall₂ (m.Shows c.options c.symbols.enums d) (t.mentions c.options c.symbols.enums)
      ((c.enumStatements t).flatMap Statement.typeTexts) := by
  rw [TypeDef.mentions, hk, enumStatements]
  dsimp only
  cases hfind : (c.symbols.enums.find? t.name).filter EnumSymbol.isExternal with
  | none =>
    have hnot : (c.symbols.enums.find? t.name).any EnumSymbol.isExternal = false := by
      cases hs : c.symbols.enums.find? t.name with
      | none => rfl
      | some e => simpa [hs, Option.filter] using hfind
    rw [hnot, Bool.false_and, if_neg Bool.false_ne_true]
    dsimp only
    rw [enumDeclaration]
    split_ifs <;> exact .nil
  | some e =>
    obtain ⟨hs, hx⟩ := Option.filter_eq_some_iff.1 hfind
    rw [hs, Option.any_some, hx, Bool.true_and]
    cases c.options.noExport with
    | true => exact .nil
    | false => exact .cons (.named (ht.enum e hs hx)) .nil

/-- The arms of a union and the lines of a block show the same types. -/
theorem shows_inputBody (hm : m.Supports c) (ht : NamedIn c m d t) (hk : t.kind = .input)
    {vs : List InputValueDef} (hvs : t.body.members = vs.map Member.input) {body : Body}
    (h : c.inputBody t (vs.map (c.inputProperty true)) = .ok body) :
    List.Forall₂ (m.Shows c.options c.symbols.enums d) (t.mentions c.options c.symbols.enums)
      body.typeTexts := by
  have hvalues (exact : Bool) : List.Forall₂ (m.Shows c.options c.symbols.enums d)
      (vs.map InputValueDef.mention)
      (vs.map fun v => (c.inputProperty true v).typeText exact) := by
    refine forall₂_map_map fun v hv => shows_inputProperty hm true exact v (ht.resolved _ ?_)
    exact mem_typeNames_of_input (hvs ▸ List.mem_map_of_mem hv)
  have hmentions : t.mentions c.options c.symbols.enums = vs.map InputValueDef.mention := by
    rw [TypeDef.mentions, hk, hvs, List.flatMap_map]
    exact List.map_eq_flatMap.symm
  rw [hmentions]
  rcases eq_of_inputBody h with rfl | rfl
  · change List.Forall₂ _ _ (List.map _ (List.map _ (List.map _ vs)))
    rw [List.map_map, List.map_map]
    exact hvalues true
  · change List.Forall₂ _ _ (List.map _ (List.map _ (List.map _ vs)))
    rw [List.map_map, List.map_map]
    exact hvalues false

/-- What a type definition becomes shows the types that it mentions. -/
theorem shows_typeResult (hm : m.Supports c) (ho : c.options.onlyEnums = false)
    (hop : c.options.onlyOperationTypes = false) (ht : NamedIn c m d t)
    {statements : List Statement} (h : c.typeResult t = .ok statements) :
    List.Forall₂ (m.Shows c.options c.symbols.enums d) (t.mentions c.options c.symbols.enums)
      (statements.flatMap Statement.typeTexts) := by
  have hsuppress : c.options.suppressesOutput = false := by
    rw [Options.suppressesOutput, ho, hop]
    rfl
  cases becomes_of_typeResult h with
  | object hk hfs =>
    have hfront : List.Forall₂ (m.Shows c.options c.symbols.enums d)
        (if c.options.skipTypename then [] else [.literal ("'" ++ t.name ++ "'")])
        ((Fold.typenameLine c.options t.name).map Line.type) := by
      unfold Fold.typenameLine
      split_ifs
      · exact .nil
      · exact .cons .literal .nil
    rw [TypeDef.mentions, hk, objectStatements, hsuppress]
    exact shows_withArguments hm ho ht hfs .type hfront
  | interface hk hfs =>
    have hfront : List.Forall₂ (m.Shows c.options c.symbols.enums d) []
        (([] : List Line).map Line.type) := .nil
    rw [TypeDef.mentions, hk, interfaceStatements, hsuppress]
    dsimp only
    rw [← List.append_nil (t.body.interfaces.map Mention.named)]
    exact shows_withArguments hm ho ht hfs _ hfront
  | union hk => exact shows_unionStatements hsuppress ht hk
  | enum hk => exact shows_enumStatements ht hk
  | @input vs body hk hvs hbody =>
    change List.Forall₂ _ _ (body.typeTexts ++ [])
    rw [List.append_nil]
    exact shows_inputBody hm ht hk hvs hbody
  | hidden hk =>
    have hscalar : t.kind = .scalar := hk.resolve_right fun h => by
      rw [ho] at h
      cases h.2
    rw [TypeDef.mentions, hscalar]
    exact .nil

end FoldContext

/-! ## In the text -/

namespace Module

variable {m : Module}

/-- The imports of a module stand at the top of its text. -/
theorem mem_preamble_of_import {s : ImportStatement} (h : s ∈ m.imports) :
    s.text ∈ m.preamble := by
  refine List.mem_filter.2 ⟨List.mem_append_left _ (List.mem_map_of_mem h), decide_eq_true ?_⟩
  cases s with
  | default name source typesOnly => cases typesOnly <;> exact append_ne_empty (by decide)
  | _ => exact append_ne_empty (by decide)

/-- So do its helper types. -/
theorem mem_preamble_of_helper {t : HelperType} (h : t ∈ m.helpers) : t.text ∈ m.preamble := by
  refine List.mem_filter.2 ⟨List.mem_append_right _ (List.mem_map_of_mem h), decide_eq_true ?_⟩
  exact append_ne_empty (by decide)

/-- The container of scalars stands in the content. -/
theorem isInfix_content_of_scalars : m.scalars.text.toList <:+: m.content.toList :=
  Text.isInfix_join "\n" (List.mem_filter.2
    ⟨List.mem_cons_self, decide_eq_true (Statement.declare m.scalars).text_ne_empty⟩)

/-- So does the container of the types that directives give. -/
theorem isInfix_content_of_directives {container : Declaration}
    (h : m.directives = some container) : container.text.toList <:+: m.content.toList := by
  have hne : directiveContainerNote ++ container.text ≠ "" :=
    append_ne_empty (Statement.declare container).text_ne_empty
  have hpart : directiveContainerNote ++ container.text ∈
      (m.directives.map fun d => directiveContainerNote ++ d.text).toList := by
    rw [h]
    exact List.mem_singleton_self _
  have hpiece : container.text.toList <:+: (directiveContainerNote ++ container.text).toList := by
    rw [String.toList_append]
    exact (List.suffix_append _ _).isInfix
  refine hpiece.trans (Text.isInfix_join "\n" (List.mem_filter.2 ⟨?_, decide_eq_true hne⟩))
  exact List.mem_append_left _ (List.mem_append_left _ (List.mem_cons_of_mem _ hpart))

/-- What definitions become stands in the content. -/
theorem isInfix_content_of_statement {statements : List Statement} (hs : statements ∈ m.definitions)
    {x : Statement} (hx : x ∈ statements) : x.text.toList <:+: m.content.toList := by
  have hne : statementsText statements ≠ "" := fun hempty => by
    rw [statementsText_eq_empty_iff.1 hempty] at hx
    cases hx
  have hinner := Text.isInfix_join "\n" (List.mem_map_of_mem (f := Statement.text) hx)
  refine hinner.trans (Text.isInfix_join "\n" (List.mem_filter.2 ⟨?_, decide_eq_true hne⟩))
  exact List.mem_append_left _ (List.mem_append_right _ (List.mem_map_of_mem hs))

end Module

end SdlTypes
