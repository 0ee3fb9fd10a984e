import SdlTypes.Proofs.Extensions
import SdlTypes.Proofs.Mentions

/-!
# Closed output

Whatever a loaded document refers to is there in the module that is made of it: `Module.Closed`
holds of every module that a run gives for the arrangement of a loaded document, whatever the
function on names.

References, declarations, imports and containers are made in different places. They meet in the
identifier of a name, `FoldContext.declaredName`. `Generated` holds what is known of a run that has
given a module, and the lemmas in its namespace say for each way to write a name that the module
has it. A document is loaded without a look at the kinds of what it refers to, so one thing is asked
of it that every valid schema has (`Document.Nominal`): interfaces and members of unions are written
as other types are named, so interfaces may not be scalars, nor may either be enums where these are
named in a way of their own.
-/

namespace SdlTypes

open Sdl Text

/-! ## Interfaces and members of unions -/

/-- Whether enums are named as all other types. -/
def Options.NamesEnumsAlike (o : Options) : Prop :=
  (o.enumPrefix = true ∨ o.typesPrefix = "") ∧ (o.enumSuffix = true ∨ o.typesSuffix = "")

instance (o : Options) : Decidable o.NamesEnumsAlike :=
  inferInstanceAs (Decidable (_ ∧ _))

theorem Resolver.enumName_eq_convertName {r : Resolver} (h : r.options.NamesEnumsAlike)
    (name : String) : r.enumName name = r.convertName name := by
  have hite {b : Bool} {s : String} (h : b = true ∨ s = "") : (if b then s else "") = s := by
    rcases h with rfl | rfl
    · rfl
    · exact ite_self _
  rw [enumName, convertName, hite h.1, hite h.2]
  rfl

namespace Sdl.Document

/-- The names of the interfaces that the types of a document implement. -/
def implementedNames (d : Document) : List String :=
  (d.types ++ d.extensions).flatMap fun t => t.body.interfaces

/-- The names of the members of the unions of a document. -/
def unionMemberNames (d : Document) : List String :=
  (d.types ++ d.extensions).flatMap fun t => t.body.types

/-- Interfaces are defined, and not as scalars. If enums are named in a way of their own, then no
interface and no member of a union is an enum. -/
structure Nominal (d : Document) (o : Options) : Prop where
  interfaces : ∀ n ∈ d.implementedNames, ∃ t ∈ d.types, t.name = n ∧ t.kind ≠ .scalar
  enums : ∀ n ∈ d.implementedNames ++ d.unionMemberNames, ∀ t ∈ d.types, t.name = n →
    t.kind = .enum → o.NamesEnumsAlike

variable {d : Document}

theorem mem_typeNames_of_type {t : TypeDef} (ht : t ∈ d.types) {n : String}
    (hn : n ∈ t.typeNames) : n ∈ d.typeNames := by
  obtain ⟨x, hx, heq⟩ := List.mem_filterMap.1 ht
  refine List.mem_flatMap.2 ⟨x, hx, ?_⟩
  cases x with
  | type u =>
    cases heq
    exact hn
  | _ => cases heq

theorem mem_typeNames_of_extension {e : TypeDef} (he : e ∈ d.extensions) {n : String}
    (hn : n ∈ e.typeNames) : n ∈ d.typeNames := by
  obtain ⟨x, hx, heq⟩ := List.mem_filterMap.1 he
  refine List.mem_flatMap.2 ⟨x, hx, ?_⟩
  cases x with
  | typeExtension u =>
    cases heq
    exact hn
  | _ => cases heq

end Sdl.Document

/-! ## Definitions and their declarations -/

namespace FoldContext

variable {c : FoldContext} {t : TypeDef}

/-- The identifier that a definition declares. -/
def declaredName (c : FoldContext) (t : TypeDef) : String :=
  if t.kind = .enum then c.resolver.enumName t.name else c.resolver.convertName t.name

/-- Every definition but those of scalars and of enums from other modules declares its
identifier. -/
theorem exists_declaration (ho : c.options.onlyEnums = false)
    (hop : c.options.onlyOperationTypes = false) (hk : t.kind ≠ .scalar)
    (hx : t.kind = .enum → (c.symbols.enums.find? t.name).filter EnumSymbol.isExternal = none)
    {statements : List Statement} (h : c.typeResult t = .ok statements) :
    ∃ declaration rest, statements = .declare declaration :: rest ∧
      declaration.name = c.declaredName t := by
  have hsuppress : c.options.suppressesOutput = false := by
    rw [Options.suppressesOutput, ho, hop]
    rfl
  have hname (hne : t.kind ≠ .enum) : c.resolver.convertName t.name = c.declaredName t :=
    (if_neg hne).symm
  cases becomes_of_typeResult h with
  | object hkind =>
    rw [objectStatements, hsuppress]
    exact ⟨_, _, rfl, hname (by simp [hkind])⟩
  | interface hkind =>
    rw [interfaceStatements, hsuppress]
    exact ⟨_, _, rfl, hname (by simp [hkind])⟩
  | union hkind =>
    rw [unionStatements, hsuppress]
    exact ⟨_, _, rfl, hname (by simp [hkind])⟩
  | enum hkind =>
    rw [enumStatements, hx hkind]
    refine ⟨_, _, rfl, ?_⟩
    rw [declaredName, if_pos hkind, enumDeclaration]
    split_ifs <;> rfl
  | input hkind => exact ⟨_, _, rfl, hname (by simp [hkind])⟩
  | hidden hkind =>
    rcases hkind with hkind | ⟨-, honly⟩
    · exact absurd hkind hk
    · rw [ho] at honly
      cases honly

end FoldContext

/-! ## Modules of loaded documents -/

/-- A module that a run has made of a loaded document, with the tables it was made from. -/
structure Generated (l : LoadedSchema) (o : Options) (m : Module) where
  convert : String → String
  symbols : SymbolTables
  loaded : LoadedSchema.ofDocument l.document = .ok l
  wellFormed : l.document.WellFormed
  tables : SymbolTables.build l.schema o (some convert) = .ok symbols
  folded : List.Forall₂
    (fun x statements => (FoldContext.ofTables l.schema o symbols convert).result x = .ok statements)
    l.arranged.definitions m.definitions
  assembled : ∃ further, m = .assemble l.schema o symbols m.definitions further

/-- A run that gives a module for a text that loads has made it of that text. -/
theorem exists_generated {text : String} {l : LoadedSchema}
    (hl : LoadedSchema.ofText text = .ok l) {o : Options} {convert : Option (String → String)}
    {further : List String} {m : Module}
    (hm : Module.generate l.schema o (some l.arranged) convert further = .ok m) :
    ∃ g : Generated l o m, SymbolTables.build l.schema o convert = .ok g.symbols := by
  obtain ⟨hparse, hloaded⟩ := LoadedSchema.parse?_of_ofText hl
  obtain ⟨k, symbols, definitions, hconvert, hbuild, hfold, rfl⟩ := Module.generate_eq_ok_iff.1 hm
  refine ⟨⟨k, symbols, hloaded, Document.wellFormed_of_parse? hparse, hbuild,
    forall₂_of_mapM hfold, further, rfl⟩, ?_⟩
  rw [← hbuild, SymbolTables.build_of_conversion hconvert]

namespace Generated

variable {l : LoadedSchema} {o : Options} {m : Module} (g : Generated l o m)

/-- What the run knew while it folded. -/
def context : FoldContext :=
  .ofTables l.schema o g.symbols g.convert

include g

theorem schema_eq : l.schema = Schema.ofDocument l.document :=
  congrArg LoadedSchema.schema (LoadedSchema.eq_of_ofDocument g.loaded).1

theorem valid : l.document.Valid :=
  (LoadedSchema.eq_of_ofDocument g.loaded).2

theorem find?_eq {t : TypeDef} (ht : t ∈ l.document.types) :
    l.schema.find? t.name = some (Schema.typeOf l.document t) := by
  rw [g.schema_eq]
  exact Schema.find?_ofDocument g.valid.2.1.2.1 ht

/-- The module has the helper types and the container that its definitions rely on. -/
theorem supports (ho : o.onlyEnums = false) : m.Supports g.context := by
  obtain ⟨further, hm⟩ := g.assembled
  have hhelpers : m.helpers = helperTypes o := congrArg Module.helpers hm
  rw [helperTypes, ho] at hhelpers
  simp only [Bool.false_eq_true, if_false] at hhelpers
  refine ⟨fun w => ?_, fun hwrap => ?_, fun hwrap => ?_, fun name hname => ?_⟩
  · rw [hhelpers]
    cases w with
    | maybe => exact ⟨_, List.mem_append_left _ (List.mem_append_left _ (.head _)), rfl⟩
    | inputMaybe =>
      exact ⟨_, List.mem_append_left _ (List.mem_append_left _ (.tail _ (.head _))), rfl⟩
  · have hfield : o.wrapFieldDefinitions = true := hwrap
    rw [hhelpers, if_pos hfield]
    exact ⟨_, List.mem_append_left _ (List.mem_append_right _ (.head _)), rfl⟩
  · have hentire : o.wrapEntireFieldDefinitions = true := hwrap
    rw [hhelpers, if_pos hentire]
    exact ⟨_, List.mem_append_right _ (.head _), rfl⟩
  · have hdirectives : m.directives = directiveContainer? l.schema g.symbols.directives :=
      congrArg Module.directives hm
    have hmem : name ∈ g.symbols.directives.keys := OrderedMap.contains_iff.1 hname
    have hne : g.symbols.directives.isEmpty = false := by
      rw [Bool.eq_false_iff]
      intro hempty
      rw [OrderedMap.keys, List.isEmpty_iff.1 hempty] at hmem
      cases hmem
    rw [hdirectives, directiveContainer?, hne]
    refine ⟨_, rfl, rfl, ?_⟩
    change name ∈ List.map Line.name (List.map _ _)
    rw [List.map_map]
    exact hmem

/-! ## What is written for a name -/

/-- A scalar in the table has one entry in the container. -/
theorem names_scalar {n : String} (h : g.symbols.scalars.contains n = true) :
    m.Names o g.symbols.enums l.arranged n (Resolver.scalarReference n) := by
  obtain ⟨further, hm⟩ := g.assembled
  have hscalars : m.scalars = scalarContainer l.schema o g.symbols.scalars :=
    congrArg Module.scalars hm
  have hnames : m.scalars.propertyNames = g.symbols.scalars.keys := by
    rw [hscalars]
    change List.map Line.name (List.map _ _) = _
    rw [List.map_map]
    rfl
  refine .scalar (hscalars ▸ rfl) ?_
  rw [hnames]
  exact List.count_eq_one_of_mem g.symbols.scalars.nodup (OrderedMap.contains_iff.1 h)

/-- A name that is referred to and not in the table of scalars is that of a type that the document
defines, and not as a scalar. -/
theorem exists_type {n : String} (hn : n ∈ l.document.typeNames)
    (hr : Schema.isReserved n = false) (hs : g.symbols.scalars.contains n = false) :
    ∃ t ∈ l.document.types, t.name = n ∧ t.kind ≠ .scalar ∧ BuiltIn.kind? n = none := by
  have hkeys := Scalars.mem_keys_table (SymbolTables.eq_of_build g.tables).1 n
  have hnot : n ∉ g.symbols.scalars.keys := fun hmem => by
    rw [OrderedMap.contains_iff.2 hmem] at hs
    cases hs
  rw [hkeys, not_or] at hnot
  have hbuiltIn := BuiltIn.kind?_eq_none hnot.1 hr
  rcases g.valid.2.2.2.1.1 n hn with hn | hn
  · obtain ⟨t, ht, rfl⟩ := List.mem_map.1 hn
    refine ⟨t, ht, rfl, fun hk => hnot.2 ?_, hbuiltIn⟩
    have hmem := (Schema.mem_of_find?_eq_some (g.find?_eq ht)).1
    rw [Schema.typeOf_of_not_builtIn _ hbuiltIn] at hmem
    refine List.mem_map.2 ⟨_, List.mem_filter.2 ⟨hmem, ?_⟩, rfl⟩
    exact Bool.and_eq_true_iff.2 ⟨beq_iff_eq.2 hk, decide_eq_true hnot.1⟩
  · rw [hbuiltIn] at hn
    cases hn

/-- The enums of the schema are spelled as names. -/
theorem spaceFree_of_mem_enums {t : NamedType} (h : t ∈ l.schema.enums) : SpaceFree t.name :=
  (LoadedSchema.isName_of_mem_enums g.loaded g.wellFormed h).1.spaceFree

/-- The identifier of an enum from another module is bound by an import. -/
theorem names_imported (hp : o.PointsToExports) {n : String} {e : EnumSymbol}
    (he : g.symbols.enums.find? n = some e) (hx : e.isExternal = true) :
    m.Names o g.symbols.enums l.arranged n e.identifier := by
  obtain ⟨further, hm⟩ := g.assembled
  have himports : m.imports = Module.importsOf g.symbols o.useTypeImports :=
    congrArg Module.imports hm
  have hentry := OrderedMap.mem_entries_of_find? he
  obtain ⟨s, hs, hbound⟩ := Enums.exists_bound_import (SymbolTables.eq_of_build g.tables).2.1 hp
    (fun t ht => g.spaceFree_of_mem_enums ht) hentry hx o.useTypeImports
  rw [← hbound]
  refine .imported he hs ?_
  rw [himports, Module.importsOf]
  exact List.mem_append_left _ (List.mem_append_left _ (Enums.mem_imports hentry hs))

/-- The identifier that a definition declares is written for its name. -/
theorem names_declared (ho : o.onlyEnums = false) (hop : o.onlyOperationTypes = false)
    {t : TypeDef} (ht : t ∈ l.document.types) (hk : t.kind ≠ .scalar)
    (hx : t.kind = .enum → (g.symbols.enums.find? t.name).filter EnumSymbol.isExternal = none) :
    m.Names o g.symbols.enums l.arranged t.name (g.context.declaredName t) := by
  have hmem := (LoadedSchema.mem_arranged_iff g.loaded).2 ⟨t, ht, rfl⟩
  obtain ⟨statements, hzip, hresult⟩ := exists_mem_zip g.folded hmem
  have hkind := t.kind_absorb (Schema.typeOf l.document t).extensions
  obtain ⟨declaration, rest, rfl, hname⟩ := FoldContext.exists_declaration (c := g.context)
    (t := t.absorb (Schema.typeOf l.document t).extensions) ho hop
    (by rwa [hkind]) (by rwa [hkind]) hresult
  have hdeclared : m.Names o g.symbols.enums l.arranged
      (t.absorb (Schema.typeOf l.document t).extensions).name declaration.name := .declared hzip
  rw [hname, FoldContext.declaredName, hkind] at hdeclared
  exact hdeclared

/-- The identifier of an enum is written for its name: it is declared, or else imported. -/
theorem names_enum (ho : o.onlyEnums = false) (hop : o.onlyOperationTypes = false)
    (hp : o.PointsToExports) {t : TypeDef} (ht : t ∈ l.document.types) (hk : t.kind = .enum) :
    m.Names o g.symbols.enums l.arranged t.name (g.context.resolver.enumName t.name) := by
  cases hfind : (g.symbols.enums.find? t.name).filter EnumSymbol.isExternal with
  | none =>
    have hdeclared := g.names_declared ho hop ht (by simp [hk]) fun _ => hfind
    rwa [FoldContext.declaredName, if_pos hk] at hdeclared
  | some e =>
    obtain ⟨he, hx⟩ := Option.filter_eq_some_iff.1 hfind
    have hidentifier := Enums.identifier_of_table (SymbolTables.eq_of_build g.tables).2.1
      (OrderedMap.mem_entries_of_find? he)
    have himported := g.names_imported hp he hx
    rwa [hidentifier] at himported

section

variable (ho : o.onlyEnums = false) (hop : o.onlyOperationTypes = false) (hp : o.PointsToExports)

include ho hop hp

/-- What every type is named is written for a type that is no scalar, and for an enum if enums are
named alike. -/
theorem names_convertName {t : TypeDef} (ht : t ∈ l.document.types) (hk : t.kind ≠ .scalar)
    (he : t.kind = .enum → o.NamesEnumsAlike) :
    m.Names o g.symbols.enums l.arranged t.name (g.context.resolver.convertName t.name) := by
  by_cases hke : t.kind = .enum
  · rw [← Resolver.enumName_eq_convertName (r := g.context.resolver) (he hke)]
    exact g.names_enum ho hop hp ht hke
  · have hdeclared := g.names_declared ho hop ht hk fun h => absurd h hke
    rwa [FoldContext.declaredName, if_neg hke] at hdeclared

/-- What a name that the document refers to is resolved to is written for it. -/
theorem names_resolve {n : String} (hn : n ∈ l.document.typeNames)
    (hr : Schema.isReserved n = false) :
    m.Names o g.symbols.enums l.arranged n (g.context.resolver.resolve n) := by
  unfold Resolver.resolve
  by_cases hs : g.symbols.scalars.contains n = true
  · have hcontains : g.context.resolver.scalars.contains n = true := hs
    rw [if_pos hcontains]
    exact g.names_scalar hs
  · have hcontains : ¬g.context.resolver.scalars.contains n = true := hs
    rw [if_neg hcontains]
    obtain ⟨t, ht, rfl, hk, hb⟩ := g.exists_type hn hr (by simpa using hs)
    have hisEnum : g.context.resolver.schema.isEnum t.name = (t.kind == .enum) := by
      change l.schema.isEnum t.name = _
      rw [Schema.isEnum, g.find?_eq ht, Schema.typeOf_of_not_builtIn _ hb]
      rfl
    rw [hisEnum]
    by_cases hke : t.kind = .enum
    · rw [if_pos (beq_iff_eq.2 hke)]
      exact g.names_enum ho hop hp ht hke
    · rw [if_neg (by simpa using hke)]
      exact g.names_convertName ho hop hp ht hk fun h => absurd h hke

variable (hn : l.document.Nominal o)

include hn

theorem names_interface {n : String} (h : n ∈ l.document.implementedNames) :
    m.Names o g.symbols.enums l.arranged n (g.context.resolver.convertName n) := by
  obtain ⟨t, ht, rfl, hk⟩ := hn.interfaces n h
  exact g.names_convertName ho hop hp ht hk
    (hn.enums _ (List.mem_append_left _ h) t ht rfl)

theorem names_unionMember {n : String} (h : n ∈ l.document.unionMemberNames)
    (htype : n ∈ l.document.typeNames) (hr : Schema.isReserved n = false) :
    m.Names o g.symbols.enums l.arranged n (g.context.resolver.resolveUnionMember n) := by
  unfold Resolver.resolveUnionMember
  by_cases hs : g.symbols.scalars.contains n = true
  · have hcontains : g.context.resolver.scalars.contains n = true := hs
    rw [if_pos hcontains]
    exact g.names_scalar hs
  · have hcontains : ¬g.context.resolver.scalars.contains n = true := hs
    rw [if_neg hcontains]
    obtain ⟨t, ht, rfl, hk, -⟩ := g.exists_type htype hr (by simpa using hs)
    exact g.names_convertName ho hop hp ht hk
      (hn.enums _ (List.mem_append_right _ h) t ht rfl)

/-- The module names what a definition of the arrangement mentions. -/
theorem namedIn (hr : ∀ n ∈ l.document.typeNames, Schema.isReserved n = false) {u : TypeDef}
    (hu : .type u ∈ l.arranged.definitions) :
    FoldContext.NamedIn g.context m l.arranged u := by
  obtain ⟨t, ht, rfl⟩ := (LoadedSchema.mem_arranged_iff g.loaded).1 hu
  have hes : ∀ e ∈ (Schema.typeOf l.document t).extensions, e ∈ l.document.extensions := fun e he =>
    (List.mem_filter.1 (Schema.mem_extensionsOf_of_mem_typeOf he)).1
  have hkinds : ∀ e ∈ (Schema.typeOf l.document t).extensions, e.kind = t.kind := fun e he =>
    Document.kind_of_mem_extensionsOf g.valid ht e (Schema.mem_extensionsOf_of_mem_typeOf he)
  have hbodies := TypeDef.kind_body_of_mem_map hkinds
  -- Whatever part of its body a definition has after its extensions were absorbed, it or one of
  -- them had it before.
  have hparts {part : TypeBody → List String} {n : String}
      (h : n ∈ part t.body ++ ((Schema.typeOf l.document t).extensions.map TypeDef.body).flatMap
        part) : n ∈ (l.document.types ++ l.document.extensions).flatMap fun u => part u.body := by
    rcases List.mem_append.1 h with h | h
    · exact List.mem_flatMap.2 ⟨t, List.mem_append_left _ ht, h⟩
    · obtain ⟨b, hb, h⟩ := List.mem_flatMap.1 h
      obtain ⟨e, he, rfl⟩ := List.mem_map.1 hb
      exact List.mem_flatMap.2 ⟨e, List.mem_append_right _ (hes e he), h⟩
  have htypeNames {n : String}
      (h : n ∈ (t.absorb (Schema.typeOf l.document t).extensions).typeNames) :
      n ∈ l.document.typeNames := by
    rcases (TypeDef.mem_typeNames_absorb hkinds n).1 h with h | ⟨e, he, h⟩
    · exact Document.mem_typeNames_of_type ht h
    · exact Document.mem_typeNames_of_extension (hes e he) h
  refine ⟨fun n h => ?_, fun n h => ?_, fun n h => ?_, fun e he hx => ?_⟩
  · exact g.names_resolve ho hop hp (htypeNames h) (hr n (htypeNames h))
  · rw [TypeDef.absorb, TypeBody.interfaces_absorb hbodies] at h
    exact g.names_interface ho hop hp hn (hparts h)
  · have htype := htypeNames (List.mem_append_left _ (List.mem_append_right _ h))
    rw [TypeDef.absorb, TypeBody.types_absorb hbodies] at h
    exact g.names_unionMember ho hop hp hn (hparts h) htype (hr n htype)
  · exact g.names_imported hp he hx

/-- The module is closed. -/
theorem closed (hr : ∀ n ∈ l.document.typeNames, Schema.isReserved n = false) :
    m.Closed o g.symbols.enums l.arranged := by
  have hnamed : ∀ x ∈ l.arranged.definitions, ∀ u, x = .type u →
      FoldContext.NamedIn g.context m l.arranged u := fun x hx u heq =>
    g.namedIn ho hop hp hn hr (heq ▸ hx)
  refine List.Forall₂.imp ?_ ((List.forall₂_and_left _ _).2 ⟨hnamed, g.folded⟩)
  rintro x statements ⟨hx, hresult⟩
  cases x with
  | type u => exact FoldContext.shows_typeResult (g.supports ho) ho hop (hx u rfl) hresult
  | _ =>
    cases hresult
    exact .nil

end

end Generated

/-- Closed output: in a module that is made of a loaded document, every type that a definition
mentions is written as a member of the container of scalars that has one entry for it, as the
identifier that its own definition declares, or as one that an import of the enum binds, with
declared helper types around it. -/
theorem Module.closed_generate {text : String} {l : LoadedSchema}
    (hl : LoadedSchema.ofText text = .ok l)
    (hr : ∀ n ∈ l.document.typeNames, Schema.isReserved n = false) {o : Options}
    (hn : l.document.Nominal o) (hp : o.PointsToExports) (ho : o.onlyEnums = false)
    (hop : o.onlyOperationTypes = false) {convert : Option (String → String)}
    {further : List String} {m : Module}
    (hm : generate l.schema o (some l.arranged) convert further = .ok m) :
    ∃ symbols, SymbolTables.build l.schema o convert = .ok symbols ∧
      m.Closed o symbols.enums l.arranged := by
  obtain ⟨g, hsymbols⟩ := exists_generated hl hm
  exact ⟨g.symbols, hsymbols, g.closed ho hop hp hn hr⟩

/-- Options under which a letter goes before the names of all types but enums. -/
def Options.bareEnums : Options :=
  { typesPrefix := "I", enumPrefix := false }

/-- The same options with an enum that is a member of an export of another module. -/
def Options.importedEnum : Options :=
  { bareEnums with enumValues := some (.each (.ofList [("E", .type "./e#Outer.Inner")])) }

/-- An enum from another module, in a schema with types of all kinds. -/
theorem Module.closed_generate_importedEnum :
    ∃ l m symbols, LoadedSchema.ofText
        "interface N \x7b e: E \x7d type A implements N \x7b e(i: [I!]): E s: S \x7d union U = A
          enum E \x7b X \x7d scalar S input I \x7b e: E \x7d" = .ok l ∧
      generate l.schema .importedEnum (some l.arranged) none [] = .ok m ∧
        SymbolTables.build l.schema .importedEnum none = .ok symbols ∧
          m.Closed .importedEnum symbols.enums l.arranged := by
  have hgenerates : (LoadedSchema.ofText
      "interface N \x7b e: E \x7d type A implements N \x7b e(i: [I!]): E s: S \x7d union U = A
          enum E \x7b X \x7d scalar S input I \x7b e: E \x7d").toOption.any fun l =>
        (generate l.schema .importedEnum (some l.arranged) none []).toOption.any fun _ =>
          decide ((∀ n ∈ l.document.typeNames, Schema.isReserved n = false) ∧
            (∀ n ∈ l.document.implementedNames, ∃ t ∈ l.document.types,
              t.name = n ∧ t.kind ≠ .scalar) ∧
            ∀ n ∈ l.document.implementedNames ++ l.document.unionMemberNames,
              ∀ t ∈ l.document.types, t.name = n → t.kind ≠ .enum) := by
    decide +kernel
  simp only [Option.any_eq_true, decide_eq_true_eq] at hgenerates
  obtain ⟨l, hl, m, hm, hr, hinterfaces, henums⟩ := hgenerates
  have hp : Options.importedEnum.PointsToExports := by
    intro name pointer hmem source identifier hcut
    cases List.mem_singleton.1 hmem
    have hpointer : cut? "#" "./e#Outer.Inner" = some ("./e", "Outer.Inner") := by decide
    rw [hpointer] at hcut
    cases hcut
    exact .path (by decide)
  obtain ⟨symbols, hsymbols, hclosed⟩ := closed_generate (eq_ok_of_toOption hl) hr
    ⟨hinterfaces, fun n hn t ht hname hk => absurd hk (henums n hn t ht hname)⟩ hp rfl rfl
    (eq_ok_of_toOption hm)
  exact ⟨l, m, symbols, eq_ok_of_toOption hl, eq_ok_of_toOption hm, hsymbols, hclosed⟩

/-- A text without names that are kept for introspection gives a module that is not closed. -/
def Module.GivenOpen (text : String) (o : Options) : Prop :=
  ∃ l m symbols, LoadedSchema.ofText text = .ok l ∧
    (∀ n ∈ l.document.types.map TypeDef.name ++ l.document.typeNames,
      Schema.isReserved n = false) ∧
      generate l.schema o (some l.arranged) none [] = .ok m ∧
        SymbolTables.build l.schema o none = .ok symbols ∧ ¬m.Closed o symbols.enums l.arranged

/-- It does if the first mention of some definition is written as the module names nothing. -/
theorem Module.givenOpen_of_any {text : String} {o : Options} (name other : String)
    (h : (LoadedSchema.ofText text).toOption.any fun l =>
      (generate l.schema o (some l.arranged) none []).toOption.any fun m =>
        (SymbolTables.build l.schema o none).toOption.any fun symbols =>
          decide ((∀ n ∈ l.document.types.map TypeDef.name ++ l.document.typeNames,
              Schema.isReserved n = false) ∧
            (∃ p ∈ l.arranged.definitions.zip m.definitions,
              (p.1.mentions o symbols.enums).head? = some (.named name) ∧
                (p.2.flatMap Statement.typeTexts).head? = some other) ∧
            ¬m.Names o symbols.enums l.arranged name other)) : GivenOpen text o := by
  simp only [Option.any_eq_true, decide_eq_true_eq] at h
  obtain ⟨l, hl, m, hm, symbols, hsymbols, hr, ⟨p, hp, hmention, hother⟩, hnot⟩ := h
  exact ⟨l, m, symbols, eq_ok_of_toOption hl, hr, eq_ok_of_toOption hm,
    eq_ok_of_toOption hsymbols, not_closed_of_head? hp hmention hother hnot⟩

/-- A union with an enum as a member, and an object with a scalar as an interface: both are
written as other types are named, and no declaration is named so. -/
theorem Module.givenOpen_enumMember_scalarInterface :
    GivenOpen "enum E \x7b A \x7d union U = E" .bareEnums ∧
      GivenOpen "scalar S type T implements S \x7b a: Int \x7d" .bareEnums := by
  constructor
  · exact givenOpen_of_any "E" "IE" (by decide +kernel)
  · exact givenOpen_of_any "S" "IS" (by decide +kernel)

end SdlTypes
