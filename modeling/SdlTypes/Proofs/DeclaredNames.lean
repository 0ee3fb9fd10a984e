import Mathlib.Data.List.Flatten
import Mathlib.Data.Prod.Basic
import SdlTypes.Proofs.ImportedEnums
import SdlTypes.Proofs.WithoutDocument

/-!
# Declared names

With names kept as they are, and nothing put before or behind them, every type that is declared
keeps its own name, and the names of types are distinct. The types of arguments get names that are
put together: that of the type, an underscore or nothing, that of the field, and `Args`. So names
are declared twice exactly if two fields with arguments lead to one such name
(`Module.nodup_declaredNames_iff`). With the underscore this cannot happen among types whose own
names have none.
-/

namespace SdlTypes

open Sdl Text

/-! ## Names -/

/-- The name that a statement declares or passes on. -/
def Statement.name : Statement → String
  | .declare d => d.name
  | .reexport identifier _ => identifier

namespace Module

/-- The names that the content of a module declares or passes on, without what was rendered
elsewhere. -/
def contentNames (m : Module) : List String :=
  m.scalars.name :: (m.directives.map Declaration.name).toList ++
    m.definitions.flatMap fun statements => statements.map Statement.name

/-- The names that a module declares or passes on, those of helper types first. -/
def declaredNames (m : Module) : List String :=
  m.helpers.map HelperType.name ++ m.contentNames

/-- The names of helper types and containers. -/
def ownNames : List String :=
  ["Maybe", "InputMaybe", "Exact", "MakeOptional", "MakeMaybe", "FieldWrapper",
    "EntireFieldWrapper", "Scalars", Fold.directiveContainer]

end Module

/-- The fields of a type that have arguments, each with the name of the type. -/
def Sdl.TypeDef.argumentFields (d : TypeDef) : List (String × String) :=
  (d.body.members.filter fun m => !m.asField.arguments.isEmpty).map fun m => (d.name, m.name)

namespace Options

/-- The fields whose arguments are declared. -/
def argumentFields (o : Options) (types : List TypeDef) : List (String × String) :=
  if o.suppressesOutput then [] else types.flatMap TypeDef.argumentFields

/-- The name that is put together for the type of a field's arguments. -/
def argumentsName (o : Options) (field : String × String) : String :=
  field.1 ++ (if o.addUnderscoreToArgsType then "_" else "") ++ field.2 ++ "Args"

/-- Different fields have different names for their arguments. -/
def NamesArgumentsApart (o : Options) (types : List TypeDef) : Prop :=
  ∀ p ∈ o.argumentFields types, ∀ q ∈ o.argumentFields types,
    o.argumentsName p = o.argumentsName q → p = q

end Options

/-! ## The names of a definition -/

/-- Only objects, interfaces and input objects have members. -/
theorem Sdl.TypeDef.members_eq_nil {d : TypeDef}
    (h : d.kind ≠ .object ∧ d.kind ≠ .interface ∧ d.kind ≠ .input) : d.body.members = [] := by
  unfold kind at h
  cases hb : d.body <;> simp_all [TypeBody.kind, TypeBody.members]

namespace FoldContext

/-- Names are kept as they are. -/
structure KeepsNames (c : FoldContext) : Prop where
  convert : c.resolver.convert = id
  typesPrefix : c.options.typesPrefix = ""
  typesSuffix : c.options.typesSuffix = ""
  enums : ∀ name e, c.symbols.enums.find? name = some e → e.identifier = name

variable {c : FoldContext}

namespace KeepsNames

theorem convertName (h : c.KeepsNames) (name : String) (before after : Bool) :
    c.resolver.convertName name before after = name := by
  have hp := h.typesPrefix
  have hs := h.typesSuffix
  rw [options] at hp hs
  rw [Resolver.convertName, Naming.affixed, h.convert, hp, hs]
  simp

theorem argumentsTypeName (h : c.KeepsNames) (typeName fieldName : String) :
    c.resolver.argumentsTypeName typeName fieldName =
      c.options.argumentsName (typeName, fieldName) := by
  rw [Resolver.argumentsTypeName, h.convertName, h.convertName]
  rfl

/-- The declarations of a type and of the arguments of its fields. -/
theorem names_withArguments (h : c.KeepsNames) {d : TypeDef} {fs : List FieldDef}
    (hfs : d.body.members = fs.map Member.field) (hshown : c.options.suppressesOutput = false)
    (keyword : Keyword) (lines : List Line) :
    (Fold.withArguments c d keyword lines (fs.map c.fieldProperty)).map Statement.name =
      d.name :: d.argumentFields.map c.options.argumentsName := by
  have honly : c.resolver.options.onlyEnums = false := (Bool.or_eq_false_iff.1 hshown).2
  have hfilter : (fun p : FieldProperty => !p.arguments.isEmpty) ∘ c.fieldProperty =
      (fun m : Member => !m.asField.arguments.isEmpty) ∘ Member.field := by
    funext f
    simp [fieldProperty, Member.asField]
  rw [Fold.withArguments, Arguments.declarations, honly, if_neg Bool.false_ne_true,
    List.filter_map, hfilter, TypeDef.argumentFields, hfs, List.filter_map, List.map_map,
    List.map_cons, List.map_map, List.map_map, List.map_map, List.map_map, List.map_map]
  refine congrArg₂ List.cons (h.convertName _ _ _) (List.map_congr_left fun f _ => ?_)
  exact h.argumentsTypeName d.name f.name

/-- An enum is declared or passed on under its own name, if it is not left to its module. -/
theorem names_enumStatements (h : c.KeepsNames) (d : TypeDef) :
    ((c.enumStatements d).map Statement.name).Sublist [d.name] := by
  unfold enumStatements
  cases hfind : (c.symbols.enums.find? d.name).filter EnumSymbol.isExternal with
  | some e =>
    obtain ⟨he, -⟩ := Option.filter_eq_some_iff.1 hfind
    dsimp only
    split_ifs
    · exact List.nil_sublist _
    · rw [List.map_singleton, Statement.name, h.enums _ _ he]
  | none =>
    have hname : (c.enumDeclaration d).name = d.name := by
      unfold enumDeclaration
      split_ifs <;> exact h.convertName _ _ _
    rw [List.map_singleton, Statement.name, hname]

/-- What a type declares: nothing or its own name, and the names for its fields with arguments. -/
theorem names_of_typeResult (h : c.KeepsNames) {d : TypeDef} {statements : List Statement}
    (hd : c.typeResult d = .ok statements) :
    ∃ own : List String, own.Sublist [d.name] ∧ statements.map Statement.name =
      own ++ (if c.options.suppressesOutput then [] else d.argumentFields).map
        c.options.argumentsName := by
  have hnone (hk : d.kind ≠ .object ∧ d.kind ≠ .interface ∧ d.kind ≠ .input) :
      (if c.options.suppressesOutput then [] else d.argumentFields) = [] := by
    rw [TypeDef.argumentFields, TypeDef.members_eq_nil hk]
    exact ite_self _
  cases becomes_of_typeResult hd with
  | @object fs hk hfs =>
    unfold objectStatements
    cases hshown : c.options.suppressesOutput with
    | true => exact ⟨[], List.nil_sublist _, rfl⟩
    | false => exact ⟨[d.name], .refl _, h.names_withArguments hfs hshown _ _⟩
  | @interface fs hk hfs =>
    unfold interfaceStatements
    cases hshown : c.options.suppressesOutput with
    | true => exact ⟨[], List.nil_sublist _, rfl⟩
    | false => exact ⟨[d.name], .refl _, h.names_withArguments hfs hshown _ _⟩
  | union hk =>
    rw [hnone (by simp [hk]), unionStatements]
    cases c.options.suppressesOutput with
    | true => exact ⟨[], List.nil_sublist _, rfl⟩
    | false => exact ⟨[d.name], .refl _, congrArg ([·]) (h.convertName _ _ _)⟩
  | enum hk =>
    rw [hnone (by simp [hk])]
    exact ⟨_, h.names_enumStatements d, (List.append_nil _).symm⟩
  | @input vs body hk hvs hbody =>
    have hfields : d.argumentFields = [] := by
      rw [TypeDef.argumentFields, hvs, List.filter_eq_nil_iff.2]
      · rfl
      · rintro _ hm
        obtain ⟨v, -, rfl⟩ := List.mem_map.1 hm
        exact Bool.false_ne_true
    rw [hfields, ite_self]
    exact ⟨[d.name], .refl _, congrArg ([·]) (h.convertName _ _ _)⟩
  | hidden hk =>
    rcases hk with hk | ⟨-, honly⟩
    · rw [hnone (by simp [hk])]
      exact ⟨[], List.nil_sublist _, rfl⟩
    · rw [Options.suppressesOutput, honly, Bool.or_true, if_pos rfl]
      exact ⟨[], List.nil_sublist _, rfl⟩

/-- What definitions declare: some of the names of types, and the names for all fields with
arguments. -/
theorem names_of_mapM (h : c.KeepsNames) {ds : List Definition} {rs : List (List Statement)}
    (hds : ds.mapM c.result = .ok rs) :
    ∃ owns : List String, owns.Sublist (typeNamesOf ds) ∧
      (rs.flatMap fun statements => statements.map Statement.name).Perm
        (owns ++ (c.options.argumentFields (ds.filterMap Definition.typeDef?)).map
          c.options.argumentsName) := by
  have hpairs := forall₂_of_mapM hds
  clear hds
  induction hpairs with
  | nil => exact ⟨[], .slnil, by rw [Options.argumentFields]; split_ifs <;> exact .refl _⟩
  | @cons x statements ds rs hx _ ih =>
    obtain ⟨owns, hsub, hperm⟩ := ih
    cases x with
    | type d =>
      obtain ⟨own, hown, hnames⟩ := h.names_of_typeResult hx
      refine ⟨own ++ owns, hown.append hsub, ?_⟩
      have hfields : c.options.argumentFields ((Definition.type d :: ds).filterMap
          Definition.typeDef?) =
          (if c.options.suppressesOutput then [] else d.argumentFields) ++
            c.options.argumentFields (ds.filterMap Definition.typeDef?) := by
        unfold Options.argumentFields
        split_ifs <;> rfl
      rw [List.flatMap_cons, hnames, hfields, List.map_append, List.append_assoc,
        List.append_assoc]
      refine List.Perm.append_left own ((List.Perm.append_left _ hperm).trans ?_)
      rw [← List.append_assoc, ← List.append_assoc]
      exact List.Perm.append_right _ List.perm_append_comm
    | _ =>
      cases hx
      exact ⟨owns, hsub, hperm⟩

end KeepsNames

end FoldContext

/-! ## Names that are put together -/

/-- The tables of a run keep names if the run does. -/
theorem FoldContext.keepsNames_ofTables {s : Schema} {o : Options} {symbols : SymbolTables}
    (hbuild : SymbolTables.build s o (some id) = .ok symbols) (hbefore : o.typesPrefix = "")
    (hafter : o.typesSuffix = "") : (FoldContext.ofTables s o symbols id).KeepsNames where
  convert := rfl
  typesPrefix := hbefore
  typesSuffix := hafter
  enums name e he := by
    obtain ⟨-, henums, -⟩ := SymbolTables.eq_of_build hbuild
    rw [Enums.identifier_of_table henums (OrderedMap.mem_entries_of_find? he), Enums.identifier,
      Naming.affixed, hbefore, hafter, ite_self, ite_self]
    simp

/-- A name that is none of a module's own, and does not look like one that is put together. -/
def IsPlainName (name : String) : Prop :=
  name ∉ Module.ownNames ∧ endsWith name "Args" = false

instance (name : String) : Decidable (IsPlainName name) :=
  inferInstanceAs (Decidable (_ ∧ _))

theorem endsWith_argumentsName (o : Options) (field : String × String) :
    endsWith (o.argumentsName field) "Args" = true :=
  endsWith_append _ _

/-- Fields of different types, and different fields of one type, are different. -/
theorem nodup_argumentFields {types : List TypeDef} (hnames : (types.map TypeDef.name).Nodup)
    (hmembers : ∀ t ∈ types, (t.body.members.map Member.name).Nodup) (o : Options) :
    (o.argumentFields types).Nodup := by
  unfold Options.argumentFields
  split_ifs
  · exact List.nodup_nil
  rw [List.nodup_flatMap]
  constructor
  · intro t ht
    have hsub : ((t.body.members.filter fun m => !m.asField.arguments.isEmpty).map
        Member.name).Nodup := (hmembers t ht).sublist (List.filter_sublist.map _)
    have hpairs := hsub.map (Prod.mk_right_injective t.name)
    rw [List.map_map] at hpairs
    exact hpairs
  · refine (List.pairwise_map.1 hnames).imp fun {t u} hne => ?_
    intro field ht hu
    obtain ⟨m, -, rfl⟩ := List.mem_map.1 ht
    obtain ⟨m', -, heq⟩ := List.mem_map.1 hu
    exact hne (congrArg Prod.fst heq).symm

/-! ## The types of a loaded schema -/

namespace Schema

theorem names_arrange (s : Schema) (document : Option Document) :
    (s.arrange document).types.map TypeDef.name =
      s.firstNames ((document.map Document.definitions).getD []) ++
        s.furtherNames (typeNamesOf ((document.map Document.definitions).getD [])) := by
  rw [Document.types, definitions_arrange, List.filterMap_append, List.map_append]
  exact congrArg₂ (· ++ ·) (s.names_arrangeDefinitions_nil _) (s.names_arrangeTypes _)

/-- No type stands twice in an arrangement. -/
theorem nodup_names_arrange (s : Schema) (document : Option Document) :
    ((s.arrange document).types.map TypeDef.name).Nodup := by
  rw [names_arrange]
  refine List.Nodup.append ((nodup_eraseDups _).filter _) (s.nodup.filter _) fun name hf hr => ?_
  exact (of_decide_eq_true (List.mem_filter.1 hr).2).1
    (List.mem_eraseDups.1 (List.mem_filter.1 hf).1)

/-- All types in an arrangement are types of the schema. -/
theorem exists_of_mem_names_arrange {s : Schema} {document : Option Document} {name : String}
    (h : name ∈ (s.arrange document).types.map TypeDef.name) : ∃ t ∈ s.types, t.name = name := by
  rw [names_arrange, List.mem_append] at h
  rcases h with h | h
  · have hknown := (List.mem_filter.1 h).2
    obtain ⟨t, ht⟩ := Option.isSome_iff_exists.1 hknown
    exact ⟨t, mem_of_find?_eq_some ht⟩
  · exact List.mem_map.1 (List.mem_filter.1 h).1

end Schema

namespace Sdl.TypeDef

/-- The members of a type in a valid document and of its extensions have different names. -/
theorem nodup_members_absorb {d : Document} (hv : d.Valid) {t : TypeDef} (ht : t ∈ d.types)
    {es : List TypeDef} (hes : es.Sublist (d.extensionsOf t.name)) :
    ((t.absorb es).body.members.map Member.name).Nodup := by
  have hkind : ∀ e ∈ es, e.kind = t.kind := fun e he =>
    Document.kind_of_mem_extensionsOf hv ht e (hes.subset he)
  have hname : ∀ e ∈ t :: es, e.name = t.name := by
    refine List.forall_mem_cons.2 ⟨rfl, fun e he => ?_⟩
    exact of_decide_eq_true (List.mem_filter.1 (hes.subset he)).2
  have hsub : (t :: es).Sublist (d.types ++ d.extensions) :=
    (List.singleton_sublist.2 ht).append (hes.trans List.filter_sublist)
  have hnodup : ((t :: es).flatMap fun u => u.body.members.map fun m => (u.name, m.name)).Nodup :=
    hv.2.1.2.2.2.1.sublist (hsub.flatMap _)
  have hpairs : ((t :: es).flatMap fun u => u.body.members.map fun m => (u.name, m.name)) =
      ((t.absorb es).body.members.map Member.name).map (Prod.mk t.name) := by
    have hmembers : (t.absorb es).body.members =
        (t :: es).flatMap fun u : TypeDef => u.body.members := members_absorb hkind
    rw [hmembers, List.map_map, List.map_flatMap]
    refine List.flatMap_congr fun u hu => ?_
    rw [hname u hu]
    rfl
  rw [hpairs] at hnodup
  exact hnodup.of_map _

end Sdl.TypeDef

namespace Schema

theorem extensions_typeOf_sublist (d : Document) (t : TypeDef) :
    (typeOf d t).extensions.Sublist (d.extensionsOf t.name) := by
  unfold typeOf
  split
  · exact List.nil_sublist _
  · exact .refl _

/-- A built-in type has no members. -/
theorem members_merged_builtIn (name : String) (kind : TypeKind) :
    (NamedType.builtIn name kind).merged.body.members = [] := by
  cases kind <;> rfl

theorem nodup_members_merged {d : Document} (hv : d.Valid) {t : NamedType}
    (ht : t ∈ (ofDocument d).types) : (t.merged.body.members.map Member.name).Nodup := by
  rcases mem_types_ofDocument ht with ⟨u, hu, rfl⟩ | ⟨name, kind, rfl, -⟩
  · cases hkind : BuiltIn.kind? u.name with
    | none =>
      rw [typeOf_of_not_builtIn d hkind, NamedType.merged, TypeDef.merge_eq_absorb]
      exact TypeDef.nodup_members_absorb hv hu (.refl _)
    | some kind =>
      have htype : typeOf d u = .builtIn u.name kind := by rw [typeOf, hkind]
      rw [htype, members_merged_builtIn]
      exact List.nodup_nil
  · rw [members_merged_builtIn]
    exact List.nodup_nil

end Schema

/-- No type of a loaded schema has two members of one name, as arranged with its document or without
one. -/
theorem LoadedSchema.nodup_members {d : Document} {l : LoadedSchema} (h : ofDocument d = .ok l)
    {document : Option Document} (hdocument : document = none ∨ document = some d) {t : TypeDef}
    (ht : t ∈ (l.schema.arrange document).types) : (t.body.members.map Member.name).Nodup := by
  obtain ⟨rfl, hv⟩ := eq_of_ofDocument h
  obtain ⟨x, hx, hxt⟩ := List.mem_filterMap.1 ht
  have hmem : .type t ∈ ((Schema.ofDocument d).arrange document).definitions := by
    cases x <;> cases hxt
    exact hx
  rcases hdocument with rfl | rfl
  · obtain ⟨u, hu, heq⟩ := Schema.exists_merged_of_mem_arrangeTypes _ hmem
    cases heq
    exact Schema.nodup_members_merged hv hu
  · obtain ⟨u, hu, rfl⟩ := (mem_arranged_iff h).1 hmem
    exact TypeDef.nodup_members_absorb hv hu (Schema.extensions_typeOf_sublist d u)

/-! ## The names of a module -/

namespace Module

/-- A module has some of its own names, each once. -/
theorem ownNames_sublist (s : Schema) (o : Options) (symbols : SymbolTables)
    (definitions : List (List Statement)) (further : List String) :
    ((assemble s o symbols definitions further).helpers.map HelperType.name ++
      (assemble s o symbols definitions further).scalars.name ::
        ((assemble s o symbols definitions further).directives.map Declaration.name).toList).Sublist
      ownNames := by
  have hhelpers : ((helperTypes o).map HelperType.name).Sublist (ownNames.take 7) := by
    have hwrapper (wrapped : Bool) (h : HelperType) :
        ((if wrapped then [h] else []).map HelperType.name).Sublist [h.name] := by
      cases wrapped
      · exact List.nil_sublist _
      · exact .refl _
    unfold helperTypes
    dsimp only
    by_cases honly : o.onlyEnums = true
    · rw [if_pos honly]
      exact List.nil_sublist _
    · rw [if_neg honly, List.map_append, List.map_append]
      exact ((List.Sublist.refl _).append (hwrapper _ _)).append (hwrapper _ _)
  have hdirectives :
      ((directiveContainer? s symbols.directives).map Declaration.name).toList.Sublist
        [Fold.directiveContainer] := by
    unfold directiveContainer?
    split_ifs
    · exact List.nil_sublist _
    · exact .refl _
  exact hhelpers.append (hdirectives.cons_cons "Scalars")

/-- Names of a module's own, names of types and names that are put together are distinct if those
that are put together are. -/
theorem nodup_append_iff {front owns names : List String} {fields : List (String × String)}
    {o : Options} (hfront : front.Sublist ownNames)
    (hnames : names.Perm (owns ++ fields.map o.argumentsName)) (howns : owns.Nodup)
    (hplain : ∀ name ∈ owns, IsPlainName name) (hfields : fields.Nodup) :
    (front ++ names).Nodup ↔
      ∀ p ∈ fields, ∀ q ∈ fields, o.argumentsName p = o.argumentsName q → p = q := by
  rw [(hnames.append_left front).nodup_iff, List.nodup_append, List.nodup_append,
    List.nodup_map_iff_inj_on hfields]
  have hown : ∀ name ∈ ownNames, endsWith name "Args" = false := by decide
  constructor
  · exact fun h => h.2.1.2.1
  · refine fun h => ⟨?_, ⟨howns, h, ?_⟩, ?_⟩
    · exact (by decide : ownNames.Nodup).sublist hfront
    · intro a ha b hb heq
      obtain ⟨field, -, rfl⟩ := List.mem_map.1 hb
      have hends := endsWith_argumentsName o field
      rw [← heq, (hplain a ha).2] at hends
      cases hends
    · intro a ha b hb heq
      rcases List.mem_append.1 hb with hb | hb
      · exact (hplain b hb).1 (heq ▸ hfront.subset ha)
      · obtain ⟨field, -, rfl⟩ := List.mem_map.1 hb
        have hends := endsWith_argumentsName o field
        rw [← heq, hown a (hfront.subset ha)] at hends
        cases hends

/-- Behind the first underscore stands the name of the field, if the name of the type has none. -/
theorem eq_of_argumentsName_eq {o : Options} (ho : o.addUnderscoreToArgsType = true)
    {p q : String × String} (hp : '_' ∉ p.1.toList) (hq : '_' ∉ q.1.toList)
    (h : o.argumentsName p = o.argumentsName q) : p = q := by
  have hcut (r : String × String) (hr : '_' ∉ r.1.toList) :
      cut? "_" (o.argumentsName r) = some (r.1, r.2 ++ "Args") := by
    rw [Options.argumentsName, ho, if_pos rfl, String.append_assoc]
    exact cut?_append (by decide) hr _
  have hparts := (hcut p hp).symm.trans (h ▸ hcut q hq)
  obtain ⟨htype, hfield⟩ := Prod.mk.inj (Option.some.inj hparts)
  exact Prod.ext htype ((String.append_left_inj _).1 hfield)

/-- With names kept as they are, and types whose names are plain, a run that folds an arrangement
declares no name twice exactly if no two fields with arguments lead to one name. With an underscore
between the parts of these names that is so if the names of the types have none. As in every schema
no type has two members of one name (`LoadedSchema.nodup_members`). -/
theorem nodup_declaredNames_iff {s : Schema} {written : Option Document}
    (hmembers : ∀ t ∈ (s.arrange written).types, (t.body.members.map Member.name).Nodup)
    (hplain : ∀ t ∈ s.types, IsPlainName t.name) {o : Options}
    {convert : Option (String → String)}
    (hconvert : SymbolTables.conversion o convert = .ok id) (hbefore : o.typesPrefix = "")
    (hafter : o.typesSuffix = "") {document : Option Document}
    (hdocument : document.getD (s.arrange none) = s.arrange written) {further : List String}
    {m : Module} (h : generate s o document convert further = .ok m) :
    (m.contentNames.Nodup ↔ o.NamesArgumentsApart (s.arrange written).types) ∧
    (m.declaredNames.Nodup ↔ o.NamesArgumentsApart (s.arrange written).types) ∧
    (o.addUnderscoreToArgsType = true →
      (∀ field ∈ o.argumentFields (s.arrange written).types, '_' ∉ field.1.toList) →
        m.declaredNames.Nodup) := by
  obtain ⟨f, symbols, definitions, hf, hbuild, hdefinitions, rfl⟩ := generate_eq_ok_iff.1 h
  cases hconvert.symm.trans hf
  rw [hdocument] at hdefinitions
  obtain ⟨owns, hsub, hperm⟩ :=
    (FoldContext.keepsNames_ofTables hbuild hbefore hafter).names_of_mapM hdefinitions
  have hnodup := s.nodup_names_arrange written
  have hownsPlain : ∀ name ∈ owns, IsPlainName name := fun name hname => by
    obtain ⟨t, ht, rfl⟩ := Schema.exists_of_mem_names_arrange (hsub.subset hname)
    exact hplain t ht
  have hown := ownNames_sublist s o symbols definitions further
  have hiff {front : List String} (hfront : front.Sublist ownNames) :=
    nodup_append_iff hfront hperm (hnodup.sublist hsub) hownsPlain
      (nodup_argumentFields hnodup hmembers o)
  have hdeclared := hiff hown
  rw [List.append_assoc] at hdeclared
  refine ⟨hiff ((List.sublist_append_right _ _).trans hown), hdeclared, fun ho hfree => ?_⟩
  exact hdeclared.2 fun p hp q hq => eq_of_argumentsName_eq ho (hfree p hp) (hfree q hq)

/-- Two types with fields that have arguments. -/
def userQueries : String :=
  "type Query \x7b user(id: ID): User userPosts(n: Int): Int \x7d " ++
    "type User \x7b posts(n: Int): Int \x7d"

/-- With the underscore the arguments of the three fields get three names. -/
theorem nodup_declaredNames_userQueries :
    ∃ l m, LoadedSchema.ofText userQueries = .ok l ∧
      generate l.schema { addUnderscoreToArgsType := true } none none [] = .ok m ∧
      m.contentNames = ["Scalars", "Query", "Query_userArgs", "Query_userPostsArgs", "User",
        "User_postsArgs"] ∧ m.declaredNames.Nodup := by
  have hloads : (LoadedSchema.ofText userQueries).toOption.any fun l =>
      (generate l.schema { addUnderscoreToArgsType := true } none none []).toOption.any fun m =>
        decide ((∀ t ∈ l.schema.types, IsPlainName t.name) ∧
          (∀ field ∈ ({ addUnderscoreToArgsType := true } : Options).argumentFields
            (l.schema.arrange none).types, '_' ∉ field.1.toList) ∧
          m.contentNames = ["Scalars", "Query", "Query_userArgs", "Query_userPostsArgs", "User",
            "User_postsArgs"]) := by
    decide +kernel
  simp only [Option.any_eq_true, decide_eq_true_eq] at hloads
  obtain ⟨l, hl, m, hm, hplain, hfree, hnames⟩ := hloads
  have hm := eq_ok_of_toOption hm
  have hmembers := fun t ht => LoadedSchema.nodup_members
    (LoadedSchema.parse?_of_ofText (eq_ok_of_toOption hl)).2 (.inl rfl) (t := t) ht
  obtain ⟨-, -, hnodup⟩ := nodup_declaredNames_iff hmembers hplain rfl rfl rfl rfl hm
  exact ⟨l, m, eq_ok_of_toOption hl, hm, hnames, hnodup rfl hfree⟩

/-- Two fields of two types may lead to one name, with the underscore and without. -/
theorem not_nodup_contentNames :
    (∃ l m, LoadedSchema.ofText
        "type A \x7b bc(x: Int): Int \x7d type Ab \x7b c(x: Int): Int \x7d" = .ok l ∧
      (∀ t ∈ l.schema.types, IsPlainName t.name) ∧
      generate l.schema {} (some l.arranged) none [] = .ok m ∧
      m.contentNames = ["Scalars", "A", "AbcArgs", "Ab", "AbcArgs"] ∧ ¬m.contentNames.Nodup) ∧
    ∃ l m, LoadedSchema.ofText
        "type A \x7b b_c(x: Int): Int \x7d type A_b \x7b c(x: Int): Int \x7d" = .ok l ∧
      (∀ t ∈ l.schema.types, IsPlainName t.name) ∧
      generate l.schema { addUnderscoreToArgsType := true } (some l.arranged) none [] = .ok m ∧
      m.contentNames = ["Scalars", "A", "A_b_cArgs", "A_b", "A_b_cArgs"] ∧
      ¬m.contentNames.Nodup := by
  have hplain : (LoadedSchema.ofText
      "type A \x7b bc(x: Int): Int \x7d type Ab \x7b c(x: Int): Int \x7d").toOption.any fun l =>
        (generate l.schema {} (some l.arranged) none []).toOption.any fun m =>
          decide ((∀ t ∈ l.schema.types, IsPlainName t.name) ∧
            m.contentNames = ["Scalars", "A", "AbcArgs", "Ab", "AbcArgs"]) := by
    decide +kernel
  have hunderscore : (LoadedSchema.ofText
      "type A \x7b b_c(x: Int): Int \x7d type A_b \x7b c(x: Int): Int \x7d").toOption.any fun l =>
        (generate l.schema { addUnderscoreToArgsType := true } (some l.arranged) none
          []).toOption.any fun m =>
            decide ((∀ t ∈ l.schema.types, IsPlainName t.name) ∧
              m.contentNames = ["Scalars", "A", "A_b_cArgs", "A_b", "A_b_cArgs"]) := by
    decide +kernel
  simp only [Option.any_eq_true, decide_eq_true_eq] at hplain hunderscore
  obtain ⟨l, hl, m, hm, htypes, hnames⟩ := hplain
  obtain ⟨l', hl', m', hm', htypes', hnames'⟩ := hunderscore
  refine ⟨⟨l, m, eq_ok_of_toOption hl, htypes, eq_ok_of_toOption hm, hnames, ?_⟩,
    l', m', eq_ok_of_toOption hl', htypes', eq_ok_of_toOption hm', hnames', ?_⟩
  · rw [hnames]
    decide
  · rw [hnames']
    decide

end Module

end SdlTypes
