import Mathlib.Data.List.Find
import SdlTypes.Proofs.FoldOutcome
import SdlTypes.Proofs.LoadedSchema
import SdlTypes.Proofs.WellFormed

/-!
# Documents without extensions

What a type extension says could as well stand in the definition that it extends.
`Document.withoutExtensions` is the document that is written in this way, `TypeDef.absorb` a
definition with the members and directives of its extensions behind its own.

The two documents come to a run on two routes. Their arrangements are one and the same, because
merging is absorbing (`TypeDef.merge_eq_absorb`, `LoadedSchema.arranged_withoutExtensions`). Their
schemas differ: the types of one have extensions, those of the other have absorbed them
(`Schema.ofDocument_withoutExtensions`). All tables agree, and so does the fold, but for an input
object that is marked with `oneOf` by an extension. Its fields are refused later then, when the
arms of its union are made, and with the same error (`FoldContext.typeResult_absorbed`).
-/

namespace SdlTypes

open Sdl

/-! ## Absorbed extensions -/

namespace Sdl

namespace TypeBody

/-- A body with what other bodies have of its kind behind its own. -/
def absorb (es : List TypeBody) : TypeBody → TypeBody
  | .scalar => .scalar
  | .object is ms => .object (is ++ es.flatMap interfaces) (ms ++ es.flatMap members)
  | .interface is ms => .interface (is ++ es.flatMap interfaces) (ms ++ es.flatMap members)
  | .union ts => .union (ts ++ es.flatMap types)
  | .enum vs => .enum (vs ++ es.flatMap values)
  | .input ms => .input (ms ++ es.flatMap members)

@[simp] theorem absorb_nil (b : TypeBody) : b.absorb [] = b := by
  cases b <;> simp [absorb]

@[simp] theorem kind_absorb (b : TypeBody) (es : List TypeBody) : (b.absorb es).kind = b.kind := by
  cases b <;> rfl

variable {b : TypeBody} {es : List TypeBody}

/-- Bodies of a kind that has nothing of some sort bring nothing of that sort. -/
theorem flatMap_eq_nil {α : Type*} {part : TypeBody → List α} (h : ∀ e ∈ es, e.kind = b.kind)
    (hnone : ∀ e : TypeBody, e.kind = b.kind → part e = []) : es.flatMap part = [] :=
  List.flatMap_eq_nil_iff.2 fun e he => hnone e (h e he)

theorem interfaces_absorb (h : ∀ e ∈ es, e.kind = b.kind) :
    (b.absorb es).interfaces = b.interfaces ++ es.flatMap interfaces := by
  cases b with
  | object | interface => rfl
  | _ =>
    rw [flatMap_eq_nil h fun e he => by cases e <;> simp_all [kind, interfaces]]
    rfl

theorem members_absorb (h : ∀ e ∈ es, e.kind = b.kind) :
    (b.absorb es).members = b.members ++ es.flatMap members := by
  cases b with
  | object | interface | input => rfl
  | _ =>
    rw [flatMap_eq_nil h fun e he => by cases e <;> simp_all [kind, members]]
    rfl

theorem types_absorb (h : ∀ e ∈ es, e.kind = b.kind) :
    (b.absorb es).types = b.types ++ es.flatMap types := by
  cases b with
  | union => rfl
  | _ =>
    rw [flatMap_eq_nil h fun e he => by cases e <;> simp_all [kind, types]]
    rfl

theorem values_absorb (h : ∀ e ∈ es, e.kind = b.kind) :
    (b.absorb es).values = b.values ++ es.flatMap values := by
  cases b with
  | enum => rfl
  | _ =>
    rw [flatMap_eq_nil h fun e he => by cases e <;> simp_all [kind, values]]
    rfl

end TypeBody

namespace TypeDef

/-- A definition with what extensions say behind what it says itself. -/
def absorb (d : TypeDef) (extensions : List TypeDef) : TypeDef :=
  { d with
    directives := d.directives ++ extensions.flatMap directives
    body := d.body.absorb (extensions.map body) }

@[simp] theorem absorb_nil (d : TypeDef) : d.absorb [] = d := by
  simp [absorb]

@[simp] theorem name_absorb (d : TypeDef) (extensions : List TypeDef) :
    (d.absorb extensions).name = d.name := rfl

@[simp] theorem kind_absorb (d : TypeDef) (extensions : List TypeDef) :
    (d.absorb extensions).kind = d.kind :=
  TypeBody.kind_absorb _ _

/-- Merging extensions one after another absorbs them. -/
theorem merge_eq_absorb (d : TypeDef) (extensions : List TypeDef) :
    d.merge extensions = d.absorb extensions := by
  induction extensions generalizing d with
  | nil => exact (absorb_nil d).symm
  | cons e rest ih =>
    have hstep : d.merge (e :: rest) = (d.extend (.ofTypeDef e)).merge rest := rfl
    rw [hstep, ih]
    simp only [absorb, extend, Additions.ofTypeDef, List.flatMap_cons, List.map_cons,
      List.append_assoc]
    congr 1
    cases d.body <;> simp [TypeBody.extend, TypeBody.absorb]

variable {d : TypeDef} {extensions : List TypeDef}

/-- The bodies of extensions of a definition's kind are of its body's kind. -/
theorem kind_body_of_mem_map (h : ∀ e ∈ extensions, e.kind = d.kind) :
    ∀ b ∈ extensions.map body, b.kind = d.body.kind := by
  intro b hb
  obtain ⟨e, he, rfl⟩ := List.mem_map.1 hb
  exact h e he

theorem members_absorb (h : ∀ e ∈ extensions, e.kind = d.kind) :
    (d.absorb extensions).body.members =
      d.body.members ++ extensions.flatMap fun e => e.body.members := by
  rw [absorb, TypeBody.members_absorb (kind_body_of_mem_map h), List.flatMap_map]

theorem values_absorb (h : ∀ e ∈ extensions, e.kind = d.kind) :
    (d.absorb extensions).body.values =
      d.body.values ++ extensions.flatMap fun e => e.body.values := by
  rw [absorb, TypeBody.values_absorb (kind_body_of_mem_map h), List.flatMap_map]

/-- A definition with its extensions refers to what it and they refer to. -/
theorem mem_typeNames_absorb (h : ∀ e ∈ extensions, e.kind = d.kind) (name : String) :
    name ∈ (d.absorb extensions).typeNames ↔
      name ∈ d.typeNames ∨ ∃ e ∈ extensions, name ∈ e.typeNames := by
  have hb := kind_body_of_mem_map h
  simp only [typeNames, absorb, TypeBody.interfaces_absorb hb, TypeBody.types_absorb hb,
    TypeBody.members_absorb hb, List.flatMap_append, List.mem_append, List.mem_flatMap,
    List.mem_map]
  grind

/-- Absorbing well-formed extensions of its kind keeps a definition well-formed. -/
theorem WellFormed.absorb (hd : d.WellFormed)
    (he : ∀ e ∈ extensions, e.WellFormed) (h : ∀ e ∈ extensions, e.kind = d.kind) :
    (d.absorb extensions).WellFormed := by
  have hparts {α : Type} {part : TypeBody → List α} {P : α → Prop}
      (hpart : ∀ t : TypeDef, t.WellFormed → t.kind = d.kind → ∀ x ∈ part t.body, P x) :
      ∀ x ∈ part d.body ++ (extensions.map TypeDef.body).flatMap part, P x := by
    refine List.forall_mem_append.2 ⟨hpart d hd rfl, fun x hx => ?_⟩
    obtain ⟨_, hmem, hx⟩ := List.mem_flatMap.1 hx
    obtain ⟨e, hext, rfl⟩ := List.mem_map.1 hmem
    exact hpart e (he e hext) (h e hext) x hx
  have hinterfaces := hparts fun t ht _ => ht.spelled.interfaces
  have htypes := hparts fun t ht _ => ht.spelled.types
  have hvalues := hparts fun t ht _ => ht.spelled.values
  have hfields (hk : d.kind = .object ∨ d.kind = .interface) :=
    hparts fun t ht htk => ht.areFields (htk ▸ hk)
  have hinputs (hk : d.kind = .input) := hparts fun t ht htk => ht.areInputs (htk.trans hk)
  refine ⟨hd.name, ?_⟩
  obtain ⟨description, name, directives, body⟩ := d
  cases body with
  | scalar => trivial
  | object => exact ⟨hinterfaces, hfields (.inl rfl)⟩
  | interface => exact ⟨hinterfaces, hfields (.inr rfl)⟩
  | union => exact htypes
  | enum => exact hvalues
  | input => exact hinputs rfl

theorem areInputs_absorb (hd : d.WellFormed) (he : ∀ e ∈ extensions, e.WellFormed)
    (h : ∀ e ∈ extensions, e.kind = d.kind) (hk : d.kind = .input) :
    AreInputs (d.absorb extensions).body.members :=
  (hd.absorb he h).areInputs ((kind_absorb d extensions).trans hk)

end TypeDef

/-! ## The document -/

/-- What stands for a definition in the document without extensions. -/
def Definition.absorbed? (extensions : List TypeDef) : Definition → Option Definition
  | .type d => some (.type (d.absorb (extensions.filter fun e => e.name = d.name)))
  | .typeExtension _ => none
  | d => some d

namespace Document

/-- The document in which every type definition has absorbed its extensions. -/
def withoutExtensions (d : Document) : Document :=
  ⟨d.definitions.filterMap (Definition.absorbed? d.extensions)⟩

/-- The extensions of a type. -/
def extensionsOf (d : Document) (name : String) : List TypeDef :=
  d.extensions.filter fun e => e.name = name

variable (d : Document)

theorem types_withoutExtensions :
    d.withoutExtensions.types = d.types.map fun t => t.absorb (d.extensionsOf t.name) := by
  rw [types, types, withoutExtensions, List.filterMap_filterMap, List.map_filterMap]
  congr 1
  funext x
  cases x <;> rfl

theorem extensions_withoutExtensions : d.withoutExtensions.extensions = [] := by
  rw [extensions, withoutExtensions, List.filterMap_filterMap, List.filterMap_eq_nil_iff]
  intro x _
  cases x <;> rfl

theorem directives_withoutExtensions : d.withoutExtensions.directives = d.directives := by
  rw [directives, directives, withoutExtensions, List.filterMap_filterMap]
  congr 1
  funext x
  cases x <;> rfl

theorem schemas_withoutExtensions : d.withoutExtensions.schemas = d.schemas := by
  rw [schemas, schemas, withoutExtensions, List.filterMap_filterMap]
  congr 1
  funext x
  cases x <;> rfl

theorem operationTypes_withoutExtensions :
    d.withoutExtensions.operationTypes = d.operationTypes := by
  rw [operationTypes, operationTypes, withoutExtensions]
  induction d.definitions with
  | nil => rfl
  | cons x rest ih =>
    rw [List.filterMap_cons, List.flatMap_cons, ← ih]
    cases x <;> rfl

/-- The extensions of a type in a valid document are of its kind. -/
theorem kind_of_mem_extensionsOf {d : Document} (hv : d.Valid) {t : TypeDef} (ht : t ∈ d.types) :
    ∀ e ∈ d.extensionsOf t.name, e.kind = t.kind := by
  intro e he
  obtain ⟨hmem, hname⟩ := List.mem_filter.1 he
  obtain ⟨u, hu, hun, huk⟩ := hv.2.2.2.2.1 e hmem
  have hsame : u.name = t.name := hun.trans (of_decide_eq_true hname)
  rw [← huk, List.inj_on_of_nodup_map hv.2.1.2.1 hu ht hsame]

end Document

end Sdl

/-! ## The schema -/

namespace NamedType

/-- A type whose definition has absorbed its extensions. -/
def absorbed (t : NamedType) : NamedType :=
  ⟨t.definition.absorb t.extensions, [], t.source, t.values⟩

variable (t : NamedType)

@[simp] theorem name_absorbed : t.absorbed.name = t.name := rfl

@[simp] theorem kind_absorbed : t.absorbed.kind = t.kind :=
  TypeDef.kind_absorb _ _

theorem absorbed_builtIn (name : String) (kind : TypeKind) :
    (builtIn name kind).absorbed = builtIn name kind :=
  congrArg (NamedType.mk · [] .builtIn _) (TypeDef.absorb_nil _)

theorem documentedText_absorbed : t.absorbed.documentedText = t.documentedText := rfl

/-- The values of an enum are as sound in its extensions as behind its own. -/
theorem hasSoundValues_absorbed (h : t.kind = .enum) :
    t.absorbed.hasSoundValues = t.hasSoundValues := by
  have hvalues : (t.definition.absorb t.extensions).body.values =
      t.definition.body.values ++ t.extensions.flatMap fun e => e.body.values := by
    rw [← List.flatMap_map]
    cases hb : t.definition.body with
    | enum => simp only [TypeDef.absorb, hb, TypeBody.absorb, TypeBody.values]
    | _ => simp [kind, TypeDef.kind, TypeBody.kind, hb] at h
  simp only [hasSoundValues, absorbed, List.all_cons, List.all_nil, hvalues, List.all_append,
    List.all_flatMap, Bool.and_true]

end NamedType

namespace Schema

theorem eq_of_types_eq {s s' : Schema} (ht : s.types = s'.types)
    (hd : s.directives = s'.directives) : s = s' := by
  cases s
  cases s'
  cases ht
  cases hd
  rfl

/-- A schema whose definitions have absorbed their extensions. -/
def absorbed (s : Schema) : Schema where
  types := s.types.map NamedType.absorbed
  directives := s.directives
  nodup := by
    rw [List.map_map]
    exact s.nodup

section

variable (s : Schema)

theorem find?_absorbed (name : String) :
    s.absorbed.find? name = (s.find? name).map NamedType.absorbed :=
  List.find?_map

theorem isEnum_absorbed (name : String) : s.absorbed.isEnum name = s.isEnum name := by
  rw [isEnum, isEnum, find?_absorbed, Option.any_map]
  simp only [NamedType.kind_absorbed]

theorem customScalars_absorbed : s.absorbed.customScalars = s.customScalars := by
  rw [customScalars, customScalars, absorbed, List.filter_map, List.map_map]
  simp only [Function.comp_def, NamedType.kind_absorbed, NamedType.name_absorbed]
  rfl

theorem enums_absorbed : s.absorbed.enums = s.enums.map NamedType.absorbed := by
  rw [enums, enums, absorbed, List.filter_map]
  simp only [Function.comp_def, NamedType.kind_absorbed, NamedType.name_absorbed]

end

/-- Changes that keep names keep the first type of each name. -/
theorem firstOfEach_map {f : NamedType → NamedType} (hf : ∀ t, (f t).name = t.name)
    (ts : List NamedType) : firstOfEach (ts.map f) = (firstOfEach ts).map f := by
  induction ts with
  | nil => rfl
  | cons t rest ih =>
    rw [List.map_cons, firstOfEach, firstOfEach, ih, List.map_cons, List.filter_map]
    simp only [Function.comp_def, hf]

variable {d : Document}

/-- A definition that has absorbed its extensions gives the type that has absorbed them. -/
theorem typeOf_withoutExtensions (hv : d.Valid) {t : TypeDef} (ht : t ∈ d.types) :
    typeOf d.withoutExtensions (t.absorb (d.extensionsOf t.name)) = (typeOf d t).absorbed := by
  have hnone : d.withoutExtensions.extensions.filter (fun e => e.name = t.name) = [] := by
    rw [d.extensions_withoutExtensions]
    rfl
  rw [typeOf, typeOf, TypeDef.name_absorb, hnone]
  cases BuiltIn.kind? t.name with
  | some kind => exact (NamedType.absorbed_builtIn _ _).symm
  | none =>
    have hvalues : NamedType.namedValues (t.absorb (d.extensionsOf t.name)) [] =
        NamedType.namedValues t (d.extensionsOf t.name) := by
      simp only [NamedType.namedValues, List.flatMap_cons, List.flatMap_nil, List.append_nil,
        TypeDef.values_absorb (Document.kind_of_mem_extensionsOf hv ht), List.map_append,
        List.map_flatMap]
    exact congrArg (NamedType.mk _ [] .document) hvalues

/-- Both documents refer to the same types. -/
theorem mem_referredNames_withoutExtensions (hv : d.Valid) (name : String) :
    name ∈ referredNames d.withoutExtensions ↔ name ∈ referredNames d := by
  have hoperations : operationTypeNames d.withoutExtensions = operationTypeNames d := by
    have hnames : d.withoutExtensions.types.map TypeDef.name = d.types.map TypeDef.name := by
      rw [d.types_withoutExtensions, List.map_map]
      rfl
    rw [operationTypeNames, d.schemas_withoutExtensions, d.operationTypes_withoutExtensions,
      hnames, operationTypeNames]
  have htypes : (∃ t ∈ d.withoutExtensions.types ++ d.withoutExtensions.extensions,
      (BuiltIn.kind? t.name).isNone ∧ name ∈ t.typeNames) ↔
        ∃ t ∈ d.types ++ d.extensions, (BuiltIn.kind? t.name).isNone ∧ name ∈ t.typeNames := by
    rw [d.types_withoutExtensions, d.extensions_withoutExtensions, List.append_nil]
    constructor
    · rintro ⟨_, hmem, hnone, hname⟩
      obtain ⟨t, ht, rfl⟩ := List.mem_map.1 hmem
      rw [TypeDef.mem_typeNames_absorb (Document.kind_of_mem_extensionsOf hv ht)] at hname
      rcases hname with hname | ⟨e, he, hname⟩
      · exact ⟨t, List.mem_append_left _ ht, hnone, hname⟩
      · obtain ⟨he, hn⟩ := List.mem_filter.1 he
        refine ⟨e, List.mem_append_right _ he, ?_, hname⟩
        rwa [of_decide_eq_true hn]
    · rintro ⟨u, hmem, hnone, hname⟩
      rcases List.mem_append.1 hmem with hu | hu
      · refine ⟨_, List.mem_map_of_mem hu, hnone, ?_⟩
        rw [TypeDef.mem_typeNames_absorb (Document.kind_of_mem_extensionsOf hv hu)]
        exact .inl hname
      · obtain ⟨t, ht, hn, -⟩ := hv.2.2.2.2.1 u hu
        refine ⟨_, List.mem_map_of_mem ht, by rwa [TypeDef.name_absorb, hn], ?_⟩
        rw [TypeDef.mem_typeNames_absorb (Document.kind_of_mem_extensionsOf hv ht)]
        exact .inr ⟨u, List.mem_filter.2 ⟨hu, by simp [hn]⟩, hname⟩
  simp only [referredNames, List.mem_append, List.mem_flatMap, List.mem_filter, hoperations,
    d.directives_withoutExtensions, and_assoc] at htypes ⊢
  rw [htypes]

/-- The schema of the document without extensions has absorbed the extensions of the other. -/
theorem ofDocument_withoutExtensions (hv : d.Valid) :
    ofDocument d.withoutExtensions = (ofDocument d).absorbed := by
  have hbuiltIn : builtInTypes d.withoutExtensions = builtInTypes d := by
    simp only [builtInTypes, mem_referredNames_withoutExtensions hv]
  have habsorb : (builtInTypes d).map NamedType.absorbed = builtInTypes d := by
    simp only [builtInTypes, List.map_append, List.map_map, Function.comp_def,
      NamedType.absorbed_builtIn]
  have hdefined : d.withoutExtensions.types.map (typeOf d.withoutExtensions) =
      (d.types.map (typeOf d)).map NamedType.absorbed := by
    rw [d.types_withoutExtensions, List.map_map, List.map_map]
    exact List.map_congr_left fun t ht => typeOf_withoutExtensions hv ht
  refine eq_of_types_eq ?_ d.directives_withoutExtensions
  change firstOfEach _ = (firstOfEach _).map NamedType.absorbed
  rw [hdefined, hbuiltIn, ← firstOfEach_map NamedType.name_absorbed, List.map_append, habsorb]

end Schema

/-! ## The arrangement -/

theorem Schema.typeOf_of_not_builtIn (d : Document) {t : TypeDef}
    (h : BuiltIn.kind? t.name = none) :
    typeOf d t = .ofDefinition .document t (d.extensionsOf t.name) := by
  rw [typeOf, h]
  rfl

/-- The type of a definition has extensions of that definition, or none. -/
theorem Schema.mem_extensionsOf_of_mem_typeOf {d : Document} {t e : TypeDef}
    (h : e ∈ (typeOf d t).extensions) : e ∈ d.extensionsOf t.name := by
  unfold typeOf at h
  split at h
  · cases h
  · exact h

/-- Both documents have one arrangement. -/
theorem LoadedSchema.arranged_withoutExtensions {d : Document} {l l' : LoadedSchema}
    (h : ofDocument d = .ok l) (h' : ofDocument d.withoutExtensions = .ok l')
    (hnames : ∀ t ∈ d.types, BuiltIn.kind? t.name = none) : l'.arranged = l.arranged := by
  have hv := (eq_of_ofDocument h).2
  suffices hdefs : l'.arranged.definitions = l.arranged.definitions from
    congrArg Document.mk hdefs
  rw [definitions_arranged h', definitions_arranged h, Schema.ofDocument_withoutExtensions hv,
    Document.withoutExtensions, List.filterMap_filterMap]
  refine List.filterMap_congr fun x hx => ?_
  cases x with
  | type t =>
    have ht : t ∈ d.types := List.mem_filterMap.2 ⟨_, hx, rfl⟩
    have hfind := Schema.find?_ofDocument hv.2.1.2.1 ht
    have htype := Schema.typeOf_of_not_builtIn d (hnames t ht)
    simp only [Definition.absorbed?, Option.bind_some, Schema.completed?, Schema.find?_absorbed,
      TypeDef.name_absorb, hfind, htype, Option.map_some, TypeDef.merge_eq_absorb]
    rw [NamedType.absorbed, TypeDef.absorb_nil]
    rfl
  | _ => rfl

/-- The types of the arrangement are the definitions with the extensions that their types have in
the schema. -/
theorem LoadedSchema.mem_arranged_iff {d : Document} {l : LoadedSchema}
    (h : ofDocument d = .ok l) {m : TypeDef} :
    .type m ∈ l.arranged.definitions ↔
      ∃ t ∈ d.types, m = t.absorb (Schema.typeOf d t).extensions := by
  have hnodup := (eq_of_ofDocument h).2.2.1.2.1
  have hcompleted (t : TypeDef) (ht : t ∈ d.types) :
      (Schema.ofDocument d).completed? (.type t) =
        some (.type (t.absorb (Schema.typeOf d t).extensions)) := by
    rw [Schema.completed?, Schema.find?_ofDocument hnodup ht, Option.map_some,
      TypeDef.merge_eq_absorb]
  rw [definitions_arranged h, List.mem_filterMap]
  constructor
  · rintro ⟨x, hx, hm⟩
    cases x with
    | type t =>
      have ht : t ∈ d.types := List.mem_filterMap.2 ⟨_, hx, rfl⟩
      rw [hcompleted t ht, Option.some.injEq, Definition.type.injEq] at hm
      exact ⟨t, ht, hm.symm⟩
    | _ => cases hm
  · rintro ⟨t, ht, rfl⟩
    obtain ⟨x, hx, heq⟩ := List.mem_filterMap.1 ht
    cases x with
    | type u =>
      cases heq
      exact ⟨_, hx, hcompleted _ ht⟩
    | _ => cases heq

/-- The types of the arrangement are those of the definitions, with their extensions. -/
theorem LoadedSchema.exists_merged_of_mem_arranged {d : Document} {l : LoadedSchema}
    (h : ofDocument d = .ok l) (hnames : ∀ t ∈ d.types, BuiltIn.kind? t.name = none)
    {m : TypeDef} (hm : .type m ∈ l.arranged.definitions) :
    ∃ t ∈ d.types, m = (Schema.typeOf d t).merged := by
  obtain ⟨t, ht, rfl⟩ := (mem_arranged_iff h).1 hm
  refine ⟨t, ht, ?_⟩
  rw [Schema.typeOf_of_not_builtIn d (hnames t ht), NamedType.merged, TypeDef.merge_eq_absorb]
  rfl

/-! ## The tables -/

section

variable (s : Schema) (o : Options)

theorem Scalars.table_absorbed : table s.absorbed o = table s o := by
  rw [table, table, s.customScalars_absorbed]

namespace Enums

theorem withInternalValues_absorbed (pointers : OrderedMap EnumPointer) :
    withInternalValues s.absorbed.enums pointers = withInternalValues s.enums pointers := by
  rw [s.enums_absorbed, withInternalValues, List.foldl_map]
  rfl

theorem pointersOf_absorbed : pointersOf s.absorbed o = pointersOf s o := by
  have hsound : s.absorbed.enums.find? (fun t => !t.hasSoundValues) =
      (s.enums.find? fun t => !t.hasSoundValues).map NamedType.absorbed := by
    rw [s.enums_absorbed, List.find?_map]
    refine congrArg _ (List.find?_congr fun t ht => ?_)
    have hkind : t.kind = .enum := by
      have := (List.mem_filter.1 ht).2
      simp only [Bool.and_eq_true, beq_iff_eq] at this
      exact this.1
    simp only [Function.comp_apply, t.hasSoundValues_absorbed hkind]
  rw [pointersOf, pointersOf, hsound, withInternalValues_absorbed]
  cases s.enums.find? fun t => !t.hasSoundValues <;> rfl

theorem table_absorbed (convert : String → String) :
    table s.absorbed o convert = table s o convert := by
  rw [table, table, pointersOf_absorbed, s.enums_absorbed]
  simp only [List.map_map]
  rfl

end Enums

theorem SymbolTables.build_absorbed (convert : Option (String → String)) :
    build s.absorbed o convert = build s o convert := by
  simp only [build, Scalars.table_absorbed, Enums.table_absorbed]

theorem Module.assemble_absorbed (symbols : SymbolTables) (definitions : List (List Statement))
    (further : List String) :
    assemble s.absorbed o symbols definitions further =
      assemble s o symbols definitions further := by
  have hscalars : scalarContainer s.absorbed o symbols.scalars =
      scalarContainer s o symbols.scalars := by
    simp only [scalarContainer, s.find?_absorbed, Option.bind_map, Function.comp_def,
      NamedType.documentedText_absorbed]
  rw [assemble, hscalars]
  rfl

end

/-! ## The fold -/

namespace FoldContext

variable (c : FoldContext)

/-- What a run knows if the definitions in its schema have absorbed their extensions. -/
def absorbed : FoldContext :=
  { c with resolver := { c.resolver with schema := c.schema.absorbed } }

theorem resolve_absorbed : c.absorbed.resolver.resolve = c.resolver.resolve := by
  funext name
  rw [Resolver.resolve, Resolver.resolve]
  change (if _ then _ else if c.schema.absorbed.isEnum name then _ else _) = _
  rw [c.schema.isEnum_absorbed]
  rfl

theorem inputProperty_absorbed : c.absorbed.inputProperty = c.inputProperty := by
  funext input v
  rw [inputProperty, inputProperty, resolve_absorbed]
  rfl

theorem fieldResult_absorbed : c.absorbed.fieldResult = c.fieldResult := by
  have hleaf : c.absorbed.fieldLeaf = c.fieldLeaf := by
    funext name
    rw [fieldLeaf, fieldLeaf, resolve_absorbed]
    rfl
  funext m
  cases m with
  | field f =>
    rw [fieldResult, fieldResult, fieldProperty, fieldProperty, hleaf, inputProperty_absorbed]
    rfl
  | input v => rfl

/-- A definition is marked with `oneOf` if it or one of its extensions is. -/
theorem marksOneOf_merge (d : TypeDef) (extensions : List TypeDef) :
    Schema.marksOneOf (d.merge extensions).directives =
      (Schema.marksOneOf d.directives ||
        extensions.any fun e => Schema.marksOneOf e.directives) := by
  rw [TypeDef.merge_eq_absorb, Schema.marksOneOf, TypeDef.absorb, List.any_append,
    List.any_flatMap]
  rfl

/-- An input object that is found takes one of its fields if its definition or the node says
so. -/
theorem isOneOf_some {t : NamedType} (hk : t.kind = .input) (node : List Directive) :
    Schema.isOneOf (some t) node =
      (Schema.marksOneOf t.definition.directives || Schema.marksOneOf node) := by
  rw [Schema.isOneOf, hk]
  rfl

/-- An input object gives the same in both schemas. If only an extension says `oneOf`, one schema
refuses a field when it is folded, the other when the arms are made. -/
theorem typeResult_absorbed_of_input {t : NamedType} (ht : c.schema.find? t.name = some t)
    (hk : t.kind = .input) {vs : List InputValueDef}
    (hvs : t.merged.body.members = vs.map Member.input)
    (hmarks : c.options.onlyEnums = false ∨
      ∀ e ∈ t.extensions, Schema.marksOneOf e.directives = false) :
    c.absorbed.typeResult t.merged = c.typeResult t.merged := by
  have hkm : t.merged.kind = .input := (TypeDef.kind_merge _ _).trans hk
  have hname : t.merged.name = t.name := TypeDef.name_merge _ _
  have ht' : c.absorbed.schema.find? t.name = some t.absorbed := by
    change c.schema.absorbed.find? t.name = _
    rw [c.schema.find?_absorbed, ht]
    rfl
  have hmark (node : List Directive) : Schema.isOneOf (some t.absorbed) node =
      (Schema.marksOneOf t.merged.directives || Schema.marksOneOf node) := by
    rw [isOneOf_some (t.kind_absorbed.trans hk), NamedType.merged, TypeDef.merge_eq_absorb]
    rfl
  have hproperty : c.absorbed.inputProperty = c.inputProperty := c.inputProperty_absorbed
  have hmerge := marksOneOf_merge t.definition t.extensions
  -- The arms are made in both schemas alike.
  have hstatements (ps : List Property) :
      c.absorbed.inputStatements t.merged ps = c.inputStatements t.merged ps := by
    have hbody : c.absorbed.inputBody t.merged ps = c.inputBody t.merged ps := by
      rw [inputBody, inputBody, hname, ht', ht, hmark, isOneOf_some hk, Bool.or_self,
        NamedType.merged, hmerge, ← Bool.or_assoc, Bool.or_self]
      rfl
    rw [inputStatements, inputStatements, hbody]
    rfl
  rw [typeResult_of_inputs _ hkm hvs, typeResult_of_inputs _ hkm hvs, hproperty, hstatements,
    hname]
  have hfold : Schema.isOneOf (c.schema.find? t.name) [] =
      Schema.marksOneOf t.definition.directives := by
    rw [ht, isOneOf_some hk]
    exact Bool.or_false _
  have hfold' : Schema.isOneOf (c.absorbed.schema.find? t.name) [] =
      (Schema.marksOneOf t.definition.directives ||
        t.extensions.any fun e => Schema.marksOneOf e.directives) := by
    rw [ht', hmark, NamedType.merged, hmerge]
    exact Bool.or_false _
  generalize vs.map (c.inputProperty true) = ps
  cases hbase : Schema.marksOneOf t.definition.directives with
  | true =>
    rw [c.verdict_of_isOneOf (hfold.trans hbase),
      c.absorbed.verdict_of_isOneOf (by rw [hfold', hbase, Bool.true_or])]
  | false =>
    rw [c.verdict_of_not_isOneOf (hfold.trans hbase), forM_ok]
    cases hext : t.extensions.any fun e => Schema.marksOneOf e.directives with
    | false =>
      rw [c.absorbed.verdict_of_not_isOneOf (by rw [hfold', hbase, hext, Bool.or_self]), forM_ok]
    | true =>
      have honly : c.options.onlyEnums = false := hmarks.resolve_right fun hnone => by
        obtain ⟨e, he, hm⟩ := List.any_eq_true.1 hext
        rw [hnone e he] at hm
        cases hm
      rw [c.absorbed.verdict_of_isOneOf (by rw [hfold', hext, Bool.or_true]), forM_mapError]
      -- The first field that is refused is the one for which there is no arm.
      rw [Except.bind, inputStatements, honly, inputBody, hname, ht, isOneOf_some hk,
        NamedType.merged, hmerge, hext, OneOf.arms]
      simp only [Bool.or_true, if_true, Bool.false_eq_true, if_false]
      cases ps.forM (OneOf.checkNullable t.name) <;> rfl

/-- A type definition gives the same in both schemas. -/
theorem typeResult_absorbed {t : NamedType} (ht : c.schema.find? t.name = some t)
    (hinputs : t.kind = .input → AreInputs t.merged.body.members)
    (hmarks : c.options.onlyEnums = false ∨
      ∀ e ∈ t.extensions, t.kind = .input → Schema.marksOneOf e.directives = false) :
    c.absorbed.typeResult t.merged = c.typeResult t.merged := by
  have hkm : t.merged.kind = t.kind := TypeDef.kind_merge _ _
  cases hk : t.kind with
  | input =>
    obtain ⟨vs, hvs⟩ := (hinputs hk).exists_eq_map
    exact c.typeResult_absorbed_of_input ht hk hvs
      (hmarks.imp_right fun hnone e he => hnone e he hk)
  | object | interface =>
    rw [typeResult, typeResult, hkm, hk, fieldResult_absorbed]
    rfl
  | union | enum =>
    rw [typeResult, typeResult, hkm, hk]
    rfl
  | scalar => rw [typeResult, typeResult, hkm, hk]

end FoldContext

/-! ## The run -/

/-- An extension is the same as its members in the definition that it extends: a document that
loads and the document without extensions, if it loads, give the same module or the same
error. -/
theorem Module.generate_withoutExtensions {text : String} {l l' : LoadedSchema}
    (h : LoadedSchema.ofText text = .ok l)
    (h' : LoadedSchema.ofDocument l.document.withoutExtensions = .ok l')
    (hnames : ∀ t ∈ l.document.types,
      t.name ∉ BuiltIn.scalars ∧ Schema.isReserved t.name = false)
    (o : Options)
    (hmarks : o.onlyEnums = false ∨ ∀ e ∈ l.document.extensions,
      e.kind = .input → Schema.marksOneOf e.directives = false)
    (convert : Option (String → String)) (further : List String) :
    generate l'.schema o (some l'.arranged) convert further =
      generate l.schema o (some l.arranged) convert further := by
  obtain ⟨hparse, hl⟩ := LoadedSchema.parse?_of_ofText h
  have hwell := Document.wellFormed_of_parse? hparse
  have hbuiltIn : ∀ t ∈ l.document.types, BuiltIn.kind? t.name = none := fun t ht =>
    BuiltIn.kind?_eq_none (hnames t ht).1 (hnames t ht).2
  have harranged := LoadedSchema.arranged_withoutExtensions hl h' hbuiltIn
  obtain ⟨hschema, hv⟩ := LoadedSchema.eq_of_ofDocument hl
  have hschema' : l'.schema = l.schema.absorbed := by
    rw [(LoadedSchema.eq_of_ofDocument h').1, hschema]
    exact Schema.ofDocument_withoutExtensions hv
  have hfold (symbols : SymbolTables) (convert : String → String) :
      l.arranged.definitions.mapM
          (FoldContext.ofTables l.schema.absorbed o symbols convert).result =
        l.arranged.definitions.mapM (FoldContext.ofTables l.schema o symbols convert).result := by
    refine mapM_congr_of_mem fun x hx => ?_
    cases x with
    | type m =>
      obtain ⟨t, ht, rfl⟩ := LoadedSchema.exists_merged_of_mem_arranged hl hbuiltIn hx
      have hfind := Schema.find?_ofDocument hv.2.1.2.1 ht
      rw [Schema.typeOf_of_not_builtIn _ (hbuiltIn t ht)] at hfind ⊢
      refine FoldContext.typeResult_absorbed (.ofTables l.schema o symbols convert)
        (by rw [hschema]; exact hfind) (fun hk => ?_) (hmarks.imp_right fun hnone e he => ?_)
      · rw [NamedType.merged, TypeDef.merge_eq_absorb]
        exact TypeDef.areInputs_absorb (hwell.types t ht)
          (fun e he => hwell.extensions e (List.mem_filter.1 he).1)
          (Document.kind_of_mem_extensionsOf hv ht) hk
      · have hkind := Document.kind_of_mem_extensionsOf hv ht e he
        exact fun hk => hnone e (List.mem_filter.1 he).1 (hkind.trans hk)
    | _ => rfl
  simp only [generate_eq, hschema', harranged, Option.getD_some, SymbolTables.build_absorbed,
    assemble_absorbed, hfold]

/-- An input object that only its extension marks with `oneOf`. -/
theorem Module.generate_withoutExtensions_oneOf :
    ∃ l l', LoadedSchema.ofText
        "input I \x7b a: Int \x7d extend input I @oneOf \x7b b: [ID!] \x7d" = .ok l ∧
      LoadedSchema.ofDocument l.document.withoutExtensions = .ok l' ∧
        generate l'.schema {} (some l'.arranged) none [] =
          generate l.schema {} (some l.arranged) none [] := by
  have hloads : (LoadedSchema.ofText
      "input I \x7b a: Int \x7d extend input I @oneOf \x7b b: [ID!] \x7d").toOption.any fun l =>
        (LoadedSchema.ofDocument l.document.withoutExtensions).toOption.any fun _ =>
          decide (∀ t ∈ l.document.types,
            t.name ∉ BuiltIn.scalars ∧ Schema.isReserved t.name = false) := by
    decide +kernel
  simp only [Option.any_eq_true, decide_eq_true_eq] at hloads
  obtain ⟨l, hl, l', hl', hnames⟩ := hloads
  exact ⟨l, l', eq_ok_of_toOption hl, eq_ok_of_toOption hl',
    generate_withoutExtensions (eq_ok_of_toOption hl) (eq_ok_of_toOption hl') hnames {}
      (.inl rfl) none []⟩

end SdlTypes
