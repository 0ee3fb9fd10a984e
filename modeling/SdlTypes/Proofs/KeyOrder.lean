import SdlTypes.Proofs.FoldOutcome
import SdlTypes.Proofs.Tables
import SdlTypes.Schema.Loading

/-!
# The order of keys

Scalars, enum values and the types that directives give are configured by maps, whose keys come in
an order. Two options that differ in that order at most (`Options.Reorders`) give the same
declarations, and all that may change is the order of imports and of the entries in the container
for directives (`Module.generate_of_reorders`).

Two maps are taken for the same if every key is looked up as the same in both
(`OrderedMap.Reorders`), and this is kept by every step in which the tables are built. A definition
is folded by looking names up, so nothing of it depends on more. What goes through a table from
front to back reads the keys and looks each of them up (`OrderedMap.entries_eq`); so it meets the
same entries, in the order of the keys.
-/

namespace SdlTypes

open Sdl

section

variable {α β γ δ : Type} {R : α → β → Prop} {x : Option α} {y : Option β}

theorem isSome_eq_of_rel (h : Option.Rel R x y) : x.isSome = y.isSome := by
  cases h <;> rfl

theorem rel_map {S : γ → δ → Prop} {f : α → γ} {g : β → δ} (h : Option.Rel R x y)
    (hf : ∀ v w, R v w → S (f v) (g w)) : Option.Rel S (x.map f) (y.map g) := by
  rcases h with h | -
  · exact .some (hf _ _ h)
  · exact .none

theorem map_eq_of_rel {f : α → γ} {g : β → γ} (h : Option.Rel R x y)
    (hf : ∀ v w, R v w → f v = g w) : x.map f = y.map g := by
  rcases h with h | -
  · exact congrArg some (hf _ _ h)
  · rfl

end

/-! ## Shuffled lists -/

/-- Two lists of the same elements, which stand in the same order at least if `fixed` holds. -/
structure Shuffles {α : Type} (fixed : Prop) (l l' : List α) : Prop where
  perm : l.Perm l'
  eq : fixed → l = l'

namespace Shuffles

variable {α β : Type} {fixed : Prop} {l l' : List α}

theorem map (h : Shuffles fixed l l') (f : α → β) : Shuffles fixed (l.map f) (l'.map f) :=
  ⟨h.perm.map f, fun hfixed => by rw [h.eq hfixed]⟩

theorem filter (h : Shuffles fixed l l') (p : α → Bool) :
    Shuffles fixed (l.filter p) (l'.filter p) :=
  ⟨h.perm.filter p, fun hfixed => by rw [h.eq hfixed]⟩

theorem filterMap (h : Shuffles fixed l l') (f : α → Option β) :
    Shuffles fixed (l.filterMap f) (l'.filterMap f) :=
  ⟨h.perm.filterMap f, fun hfixed => by rw [h.eq hfixed]⟩

theorem eq_nil_iff (h : Shuffles fixed l l') : l = [] ↔ l' = [] :=
  ⟨fun hl => (hl ▸ h.perm).nil_eq.symm, fun hl => (hl ▸ h.perm).eq_nil⟩

end Shuffles

/-! ## Maps -/

namespace OrderedMap

variable {α β γ δ : Type}

/-- Two maps with the same keys, in whatever order, and related values. -/
def Reorders (R : α → β → Prop) (m : OrderedMap α) (m' : OrderedMap β) : Prop :=
  ∀ key, Option.Rel R (m.find? key) (m'.find? key)

namespace Reorders

variable {R : α → β → Prop} {m : OrderedMap α} {m' : OrderedMap β}

theorem refl {R : α → α → Prop} (hR : ∀ v, R v v) {m : OrderedMap α} : Reorders R m m := by
  intro key
  cases m.find? key with
  | none => exact .none
  | some v => exact .some (hR v)

theorem mem_keys_iff (h : Reorders R m m') (key : String) : key ∈ m.keys ↔ key ∈ m'.keys := by
  rw [OrderedMap.mem_keys_iff, OrderedMap.mem_keys_iff, isSome_eq_of_rel (h key)]

theorem perm_keys (h : Reorders R m m') : m.keys.Perm m'.keys :=
  (List.perm_ext_iff_of_nodup m.nodup m'.nodup).2 h.mem_keys_iff

theorem contains_eq (h : Reorders R m m') (key : String) : m.contains key = m'.contains key := by
  rw [Bool.eq_iff_iff, contains_iff, contains_iff, h.mem_keys_iff]

theorem find?_eq {m m' : OrderedMap α} (h : Reorders Eq m m') (key : String) :
    m.find? key = m'.find? key := by
  simpa using map_eq_of_rel (f := id) (g := id) (h key) fun _ _ h => h

theorem insert (h : Reorders R m m') (key : String) {v : α} {v' : β} (hv : R v v') :
    Reorders R (m.insert key v) (m'.insert key v') := by
  intro k
  rw [find?_insert, find?_insert]
  split_ifs
  · exact .some hv
  · exact h k

theorem insertNew (h : Reorders R m m') (key : String) {v : α} {v' : β} (hv : R v v') :
    Reorders R (m.insertNew key v) (m'.insertNew key v') := by
  rw [OrderedMap.insertNew, OrderedMap.insertNew, h.contains_eq]
  split_ifs
  · exact h
  · exact h.insert key hv

theorem mapWithKey {S : γ → δ → Prop} {f : String → α → γ} {g : String → β → δ}
    (h : Reorders R m m') (hf : ∀ key v v', R v v' → S (f key v) (g key v')) :
    Reorders S (m.mapWithKey f) (m'.mapWithKey g) := by
  intro key
  rw [find?_mapWithKey, find?_mapWithKey]
  exact rel_map (h key) (hf key)

/-- What is made of the entries of two such maps is the same, in the order of the keys. -/
theorem shuffles_map_entries {fixed : Prop} (h : Reorders R m m')
    (hkeys : fixed → m.keys = m'.keys) {f : String × α → γ} {g : String × β → γ}
    (hf : ∀ key v v', R v v' → f (key, v) = g (key, v')) :
    Shuffles fixed (m.entries.map f) (m'.entries.map g) := by
  have hlookup : (fun key => ((m.find? key).map fun v => (key, v)).map f) =
      fun key => ((m'.find? key).map fun v => (key, v)).map g := by
    funext key
    rw [Option.map_map, Option.map_map]
    exact map_eq_of_rel (h key) (hf key)
  rw [entries_eq m, entries_eq m', List.map_filterMap, List.map_filterMap, hlookup]
  exact (Shuffles.mk h.perm_keys hkeys).filterMap _

end Reorders

/-- Two such maps have the same entries in whatever order, up to the relation of their values. -/
theorem reorders_iff {R : α → β → Prop} {m : OrderedMap α} {m' : OrderedMap β} :
    Reorders R m m' ↔ ∃ l, m.entries.Perm l ∧
      List.Forall₂ (fun p q => p.1 = q.1 ∧ R p.2 q.2) l m'.entries := by
  constructor
  · intro h
    refine ⟨m'.keys.filterMap fun key => (m.find? key).map fun v => (key, v), ?_, ?_⟩
    · exact (List.Perm.of_eq m.entries_eq).trans (h.perm_keys.filterMap _)
    · rw [m'.entries_eq]
      have hkeys : List.Forall₂ Eq m'.keys m'.keys := List.forall₂_same.2 fun _ _ => rfl
      refine List.rel_filterMap (fun key _ hkey => ?_) hkeys
      rw [← hkey]
      exact rel_map (h key) fun v w hv => ⟨rfl, hv⟩
  · rintro ⟨l, hperm, hrel⟩ key
    -- in another order the entries are a map as well, in which every key is found as before
    have hnodup : (l.map Prod.fst).Nodup := (hperm.map _).nodup_iff.1 m.nodup
    have hfind : m.find? key = (OrderedMap.mk l hnodup).find? key := by
      refine Option.ext fun v => ?_
      rw [find?_eq_some_iff, find?_eq_some_iff, hperm.mem_iff]
    rw [hfind]
    change Option.Rel R (l.lookup key) (m'.entries.lookup key)
    generalize m'.entries = l' at hrel ⊢
    clear hfind hnodup hperm
    induction hrel with
    | nil => exact .none
    | cons hp _ ih =>
      rw [lookup_cons_eq, lookup_cons_eq, hp.1]
      split_ifs
      · exact .some hp.2
      · exact ih

theorem reorders_of_perm {m m' : OrderedMap α} (h : m.entries.Perm m'.entries) :
    Reorders Eq m m' :=
  reorders_iff.2 ⟨m'.entries, h, List.forall₂_same.2 fun _ _ => ⟨rfl, rfl⟩⟩

end OrderedMap

/-! ## Options -/

/-- What is configured for an enum, with the values of its constants in whatever order. -/
inductive EnumPointer.Reorders : EnumPointer → EnumPointer → Prop
  | type (pointer : String) : Reorders (.type pointer) (.type pointer)
  | constants {values values' : OrderedMap Constant} (h : values.Reorders Eq values') :
    Reorders (.constants values) (.constants values')

/-- What is configured for all enums, with these and the values of each in whatever order. -/
inductive EnumOption.Reorders : EnumOption → EnumOption → Prop
  | module (source : String) : Reorders (.module source) (.module source)
  | each {pointers pointers' : OrderedMap EnumPointer}
    (h : pointers.Reorders EnumPointer.Reorders pointers') :
    Reorders (.each pointers) (.each pointers')

namespace Options

/-- The options with other types for scalars, for enums and for what directives give. -/
def withMappings (o : Options) (scalars : OrderedMap String) (enumValues : Option EnumOption)
    (directiveMappings : OrderedMap String) : Options :=
  { o with scalars, enumValues, directiveMappings }

/-- Options that differ in the order of keys at most. All others are the same by definition once
such a fact is taken apart, and so is what depends on these alone. -/
inductive Reorders (o : Options) : Options → Prop
  | mk {scalars directiveMappings : OrderedMap String} {enumValues : Option EnumOption}
    (hs : o.scalars.Reorders Eq scalars)
    (he : Option.Rel EnumOption.Reorders o.enumValues enumValues)
    (hd : o.directiveMappings.Reorders Eq directiveMappings) :
    Reorders o (o.withMappings scalars enumValues directiveMappings)

/-- Whether the enums are configured in the same order. -/
def SameEnumOrder (o o' : Options) : Prop :=
  (Enums.configured o).keys = (Enums.configured o').keys

end Options

/-! ## Tables -/

/-- Two errors of one kind: they are equal, or name the same unknown enums. -/
inductive TableError.SameKind (fixed : Prop) : TableError → TableError → Prop
  | refl (e : TableError) : SameKind fixed e e
  | unknownEnums {names names' : List String} (h : Shuffles fixed names names') :
    SameKind fixed (.config (.unknownEnums names)) (.config (.unknownEnums names'))

/-- Two entries of the table of enums, with the values of constants in whatever order. -/
inductive EnumSymbol.Reorders : EnumSymbol → EnumSymbol → Prop
  | refl (e : EnumSymbol) : Reorders e e
  | constants (identifier : String) {values values' : OrderedMap Constant}
    (h : values.Reorders Eq values') :
    Reorders ⟨identifier, .constants values⟩ ⟨identifier, .constants values'⟩

/-- The tables of two runs with options that differ in the order of keys at most. -/
structure SymbolTables.Reorders (o o' : Options) (t t' : SymbolTables) : Prop where
  scalars : t.scalars = t'.scalars
  enums : t.enums.Reorders EnumSymbol.Reorders t'.enums
  enumKeys : o.SameEnumOrder o' → t.enums.keys = t'.enums.keys
  directives : t.directives.Reorders Eq t'.directives
  directiveKeys : o.directiveMappings = o'.directiveMappings →
    t.directives.keys = t'.directives.keys

variable {o o' : Options}

/-- The table of scalars looks their types up in the options, scalar by scalar. -/
theorem Scalars.table_of_reorders (h : o.Reorders o') (s : Schema) : table s o = table s o' := by
  obtain ⟨hs, -, -⟩ := h
  rename_i scalars directiveMappings enumValues
  have hcustom (name : String) : customEntry o name =
      customEntry (o.withMappings scalars enumValues directiveMappings) name := by
    rw [customEntry, customEntry, hs.find?_eq]
    rfl
  have hbuiltIn (name type : String) : builtInEntry o name type =
      builtInEntry (o.withMappings scalars enumValues directiveMappings) name type := by
    rw [builtInEntry, builtInEntry, hs.find?_eq]
    rfl
  simp only [table, builtInEntries, funext hcustom, hbuiltIn]

namespace Enums

theorem reorders_configured (h : o.Reorders o') :
    (configured o).Reorders EnumPointer.Reorders (configured o') := by
  obtain ⟨-, he, -⟩ := h
  unfold configured Options.withMappings
  generalize o.enumValues = x at he
  rcases he with ⟨⟨source⟩ | ⟨hpointers⟩⟩ | _
  · exact fun _ => .none
  · exact hpointers
  · exact fun _ => .none

theorem enumValues_eq_module_iff (h : o.Reorders o') (source : String) :
    o.enumValues = some (.module source) ↔ o'.enumValues = some (.module source) := by
  obtain ⟨-, he, -⟩ := h
  unfold Options.withMappings
  generalize o.enumValues = x at he
  rcases he with ⟨⟨source'⟩ | ⟨hpointers⟩⟩ | _ <;> simp

theorem reorders_addInternalValue {m m' : OrderedMap EnumPointer}
    (h : m.Reorders EnumPointer.Reorders m') (enumName valueName : String) (value : Constant) :
    (addInternalValue m enumName valueName value).Reorders EnumPointer.Reorders
      (addInternalValue m' enumName valueName value) := by
  have hfind := h enumName
  unfold addInternalValue
  generalize m.find? enumName = x, m'.find? enumName = y at hfind
  rcases hfind with ⟨⟨pointer⟩ | ⟨hvalues⟩⟩ | _
  · exact h
  · exact h.insert _ (.constants (hvalues.insertNew _ rfl))
  · exact h.insert _ (.constants (.refl fun _ => rfl))

/-- Internal values are added in the order of the schema. So where the enums that are configured
stand in the same order, all of them do. -/
theorem reorders_withInternalValues {m m' : OrderedMap EnumPointer} {fixed : Prop}
    (h : m.Reorders EnumPointer.Reorders m') (hkeys : fixed → m.keys = m'.keys)
    (enums : List NamedType) :
    (withInternalValues enums m).Reorders EnumPointer.Reorders (withInternalValues enums m') ∧
      (fixed → (withInternalValues enums m).keys = (withInternalValues enums m').keys) := by
  -- the values are added one by one, to the enums one by one: what one step keeps both folds keep
  let Same (m m' : OrderedMap EnumPointer) : Prop :=
    m.Reorders EnumPointer.Reorders m' ∧ (fixed → m.keys = m'.keys)
  unfold withInternalValues
  refine List.foldl_rel (r := Same) ⟨h, hkeys⟩ ?_
  rintro t - m m' hm
  refine List.foldl_rel (r := Same) hm ?_
  rintro ⟨name, value⟩ - m m' ⟨hm, hkeys⟩
  refine ⟨reorders_addInternalValue hm _ _ _, fun hfixed => ?_⟩
  rw [keys_addInternalValue, keys_addInternalValue, hkeys hfixed]

theorem parallel_pointersOf (h : o.Reorders o') (s : Schema) {fixed : Prop} :
    Parallel (TableError.SameKind fixed)
      (fun m m' => m.Reorders EnumPointer.Reorders m' ∧ (o.SameEnumOrder o' → m.keys = m'.keys))
      (pointersOf s o) (pointersOf s o') := by
  have hconfigured := reorders_configured h
  have hignore : o.ignoreEnumValuesFromSchema = o'.ignoreEnumValuesFromSchema := by
    obtain ⟨-, -, -⟩ := h
    rfl
  unfold pointersOf
  rw [hignore]
  split_ifs
  · exact .ok ⟨hconfigured, id⟩
  · split
    · exact .error (.refl _)
    · exact .ok (reorders_withInternalValues hconfigured id s.enums)

theorem reorders_symbol (h : o.Reorders o') (convert : String → String) (name : String)
    {p p' : EnumPointer} (hp : p.Reorders p') :
    (symbol o convert name p).Reorders (symbol o' convert name p') := by
  obtain ⟨-, -, -⟩ := h
  rcases hp with ⟨pointer⟩ | ⟨hvalues⟩
  · exact .refl _
  · exact .constants _ hvalues

theorem parallel_table (h : o.Reorders o') (s : Schema) (convert : String → String) :
    Parallel (TableError.SameKind (o.SameEnumOrder o'))
      (fun t t' => t.Reorders EnumSymbol.Reorders t' ∧ (o.SameEnumOrder o' → t.keys = t'.keys))
      (table s o convert) (table s o' convert) := by
  by_cases hmodule : ∃ source, o.enumValues = some (.module source)
  · -- the table follows the order of the schema
    obtain ⟨source, hsource⟩ := hmodule
    have hsource' := (enumValues_eq_module_iff h source).1 hsource
    have heq : table s o convert = table s o' convert := by
      unfold table
      rw [hsource, hsource']
      obtain ⟨-, -, -⟩ := h
      rfl
    rw [← heq]
    unfold table
    rw [hsource]
    exact .ok ⟨.refl .refl, fun _ => rfl⟩
  · rw [not_exists] at hmodule
    have hunknown : Shuffles (o.SameEnumOrder o') (unknownNames s o) (unknownNames s o') :=
      (Shuffles.mk (reorders_configured h).perm_keys id).filter _
    rw [table_of_each s convert hmodule,
      table_of_each s convert fun source =>
        (enumValues_eq_module_iff h source).not.1 (hmodule source)]
    by_cases hknown : unknownNames s o = []
    · rw [if_neg (not_not.2 hknown), if_neg (not_not.2 (hunknown.eq_nil_iff.1 hknown))]
      refine (parallel_pointersOf h s).map fun m m' hm => ⟨?_, fun hfixed => ?_⟩
      · exact hm.1.mapWithKey fun name p p' hp => reorders_symbol h convert name hp
      · rw [OrderedMap.keys_mapWithKey, OrderedMap.keys_mapWithKey, hm.2 hfixed]
    · rw [if_pos hknown, if_pos (hunknown.eq_nil_iff.not.1 hknown)]
      exact .error (.unknownEnums hunknown)

end Enums

namespace SymbolTables

theorem reorders_directiveTable (h : o.Reorders o') :
    (directiveTable o).Reorders Eq (directiveTable o') := by
  obtain ⟨-, -, hd⟩ := h
  refine hd.mapWithKey fun name p p' hp => ?_
  rw [hp]
  rfl

theorem parallel_build (h : o.Reorders o') (s : Schema) (f : String → String) :
    Parallel (TableError.SameKind (o.SameEnumOrder o')) (Reorders o o') (build s o (some f))
      (build s o' (some f)) := by
  unfold build
  rw [Scalars.table_of_reorders h]
  refine .of_bind .refl fun scalars _ => .of_bind .refl fun convert _ => ?_
  refine (Enums.parallel_table h s convert).bind fun enums enums' _ _ ⟨henums, hkeys⟩ => .ok ?_
  refine ⟨rfl, henums, hkeys, reorders_directiveTable h, fun hsame => ?_⟩
  simp only [directiveTable, OrderedMap.keys_mapWithKey, hsame]

end SymbolTables

/-! ## The fold -/

namespace EnumSymbol.Reorders

variable {e e' : EnumSymbol}

theorem identifier_eq (h : e.Reorders e') : e.identifier = e'.identifier := by
  rcases h with - | - <;> rfl

theorem isExternal_eq (h : e.Reorders e') : e.isExternal = e'.isExternal := by
  rcases h with - | - <;> rfl

theorem imports_eq (h : e.Reorders e') (typesOnly : Bool) :
    e.imports typesOnly = e'.imports typesOnly := by
  rcases h with - | - <;> rfl

theorem constant?_eq (h : e.Reorders e') (name : String) :
    e.constant? name = e'.constant? name := by
  rcases h with - | ⟨-, hvalues⟩
  · rfl
  · exact hvalues.find?_eq name

end EnumSymbol.Reorders

namespace FoldContext

/-- Two contexts that differ in the order of keys at most. -/
inductive Reorders (c : FoldContext) : FoldContext → Prop
  | mk {scalars directiveMappings : OrderedMap String} {enumValues : Option EnumOption}
    {enums : OrderedMap EnumSymbol} {directives : OrderedMap MappedType}
    (he : c.symbols.enums.Reorders EnumSymbol.Reorders enums)
    (hd : c.symbols.directives.Reorders Eq directives) :
    Reorders c ⟨⟨c.symbols.scalars, enums, directives⟩,
      { c.resolver with options := c.options.withMappings scalars enumValues directiveMappings }⟩

theorem reorders_ofTables {t t' : SymbolTables} (ho : o.Reorders o')
    (ht : SymbolTables.Reorders o o' t t') (s : Schema) (f : String → String) :
    (ofTables s o t f).Reorders (ofTables s o' t' f) := by
  obtain ⟨hscalars, henums, -, hdirectives, -⟩ := ht
  obtain ⟨-, -, -⟩ := ho
  obtain ⟨scalars, enums, directives⟩ := t'
  cases hscalars
  exact .mk henums hdirectives

/-- Of an enum from another module only the identifier is written. -/
theorem enumStatements_eq (c : FoldContext) (d : TypeDef) :
    c.enumStatements d =
      (((c.symbols.enums.find? d.name).filter EnumSymbol.isExternal).map
        EnumSymbol.identifier).elim [.declare (c.enumDeclaration d)] fun identifier =>
          if c.options.noExport then [] else [.reexport identifier c.options.useTypeImports] := by
  unfold enumStatements
  cases (c.symbols.enums.find? d.name).filter EnumSymbol.isExternal <;> rfl

namespace Reorders

variable {c c' : FoldContext}

theorem directiveOverride_eq (h : c.Reorders c') :
    Fold.directiveOverride c = Fold.directiveOverride c' := by
  obtain ⟨-, hd⟩ := h
  funext directives
  simp only [Fold.directiveOverride, hd.contains_eq]

theorem inputProperty_eq (h : c.Reorders c') : c.inputProperty = c'.inputProperty := by
  have hoverride := h.directiveOverride_eq
  obtain ⟨-, -⟩ := h
  funext input v
  rw [inputProperty, hoverride]
  rfl

theorem fieldResult_eq (h : c.Reorders c') : c.fieldResult = c'.fieldResult := by
  have hproperty := h.inputProperty_eq
  obtain ⟨-, -⟩ := h
  funext m
  rcases m with f | v
  · rw [fieldResult, fieldProperty, hproperty]
    rfl
  · rfl

theorem inputResult_eq (h : c.Reorders c') : c.inputResult = c'.inputResult := by
  have hproperty := h.inputProperty_eq
  obtain ⟨-, -⟩ := h
  funext typeName m
  rcases m with f | v
  · rfl
  · rw [inputResult, hproperty]
    rfl

theorem find?_enums (h : c.Reorders c') (name : String) :
    Option.Rel EnumSymbol.Reorders (c.symbols.enums.find? name) (c'.symbols.enums.find? name) := by
  obtain ⟨he, -⟩ := h
  exact he name

theorem constantValue_eq (h : c.Reorders c') (enumName name : String) :
    Fold.constantValue (c.symbols.enums.find? enumName) name =
      Fold.constantValue (c'.symbols.enums.find? enumName) name := by
  have henum := h.find?_enums enumName
  generalize c.symbols.enums.find? enumName = x, c'.symbols.enums.find? enumName = y at henum
  rcases henum with he | -
  · exact congrArg (Option.getD · (.text name)) (he.constant?_eq name)
  · rfl

theorem external_eq (h : c.Reorders c') (name : String) :
    ((c.symbols.enums.find? name).filter EnumSymbol.isExternal).map EnumSymbol.identifier =
      ((c'.symbols.enums.find? name).filter EnumSymbol.isExternal).map EnumSymbol.identifier := by
  have henum := h.find?_enums name
  generalize c.symbols.enums.find? name = x, c'.symbols.enums.find? name = y at henum
  rcases henum with he | -
  · rw [Option.filter_some, Option.filter_some, he.isExternal_eq]
    split_ifs
    · exact congrArg some he.identifier_eq
    · rfl
  · rfl

theorem enumDeclaration_eq (h : c.Reorders c') : c.enumDeclaration = c'.enumDeclaration := by
  funext d
  have henumerators : c.enumerators d = c'.enumerators d := by
    have hvalue := h.constantValue_eq d.name
    obtain ⟨-, -⟩ := h
    refine List.map_congr_left fun v _ => ?_
    rw [Fold.enumerator, hvalue]
    rfl
  obtain ⟨-, -⟩ := h
  rw [enumDeclaration, henumerators]
  rfl

theorem enumStatements_eq (h : c.Reorders c') : c.enumStatements = c'.enumStatements := by
  funext d
  have hexternal := h.external_eq d.name
  have hdeclaration := h.enumDeclaration_eq
  obtain ⟨-, -⟩ := h
  rw [FoldContext.enumStatements_eq, FoldContext.enumStatements_eq, hexternal, hdeclaration]
  rfl

theorem typeResult_eq (h : c.Reorders c') : c.typeResult = c'.typeResult := by
  funext d
  unfold typeResult
  rw [h.fieldResult_eq, h.inputResult_eq, h.enumStatements_eq]
  obtain ⟨-, -⟩ := h
  rfl

/-- No definition depends on the order of keys. -/
theorem result_eq (h : c.Reorders c') : c.result = c'.result := by
  funext x
  rcases x with d | _ | _
  · exact congrFun h.typeResult_eq d
  all_goals rfl

end Reorders

end FoldContext

/-! ## Two runs -/

namespace Declaration

/-- A declaration of properties with its lines in whatever order. -/
inductive Shuffles (fixed : Prop) (d : Declaration) : Declaration → Prop
  | mk {interfaces : List String} {lines lines' : List Line}
    (hd : d.body = .properties interfaces lines) (h : SdlTypes.Shuffles fixed lines lines') :
    Shuffles fixed d { d with body := .properties interfaces lines' }

theorem Shuffles.eq {fixed : Prop} {d d' : Declaration} (h : d.Shuffles fixed d')
    (hfixed : fixed) : d = d' := by
  obtain ⟨hd, hlines⟩ := h
  rw [← hlines.eq hfixed, ← hd]

end Declaration

/-- The statements that import the enums of a table, enum by enum. -/
def Enums.importGroups (table : OrderedMap EnumSymbol) (typesOnly : Bool) :
    List (List ImportStatement) :=
  table.values.map (EnumSymbol.imports typesOnly)

namespace SymbolTables.Reorders

variable {t t' : SymbolTables}

theorem shuffles_importGroups (h : SymbolTables.Reorders o o' t t') (typesOnly : Bool) :
    Shuffles (o.SameEnumOrder o') (Enums.importGroups t.enums typesOnly)
      (Enums.importGroups t'.enums typesOnly) := by
  rw [Enums.importGroups, Enums.importGroups, OrderedMap.values, OrderedMap.values, List.map_map,
    List.map_map]
  exact h.enums.shuffles_map_entries h.enumKeys fun key e e' he => he.imports_eq typesOnly

theorem shuffles_directives (h : SymbolTables.Reorders o o' t t') :
    Shuffles (o.directiveMappings = o'.directiveMappings) t.directives.entries
      t'.directives.entries := by
  have hentries := h.directives.shuffles_map_entries h.directiveKeys (f := id) (g := id)
    fun key m m' hm => by rw [hm]
  rwa [List.map_id, List.map_id] at hentries

theorem rel_directiveContainer? (h : SymbolTables.Reorders o o' t t') (s : Schema) :
    Option.Rel (Declaration.Shuffles (o.directiveMappings = o'.directiveMappings))
      (directiveContainer? s t.directives) (directiveContainer? s t'.directives) := by
  have hentries := h.shuffles_directives
  unfold directiveContainer? OrderedMap.isEmpty
  by_cases hnone : t.directives.entries = []
  · rw [if_pos (List.isEmpty_iff.2 hnone),
      if_pos (List.isEmpty_iff.2 (hentries.eq_nil_iff.1 hnone))]
    exact .none
  · rw [if_neg (List.isEmpty_iff.not.2 hnone),
      if_neg (List.isEmpty_iff.not.2 (hentries.eq_nil_iff.not.1 hnone))]
    exact .some (.mk rfl (hentries.map _))

end SymbolTables.Reorders

namespace GenerationError

/-- Two errors of one kind: they are equal, or name the same unknown enums. -/
inductive SameKind (fixed : Prop) : GenerationError → GenerationError → Prop
  | tables {e e' : TableError} (h : e.SameKind fixed e') : SameKind fixed (.tables e) (.tables e')
  | fold (e : FoldError) : SameKind fixed (.fold e) (.fold e)

theorem SameKind.refl {fixed : Prop} (e : GenerationError) : e.SameKind fixed e := by
  rcases e with e | e
  · exact .tables (.refl e)
  · exact .fold e

theorem SameKind.eq {fixed : Prop} {e e' : GenerationError} (h : e.SameKind fixed e')
    (hfixed : fixed) : e = e' := by
  rcases h with ⟨⟨-⟩ | ⟨hnames⟩⟩ | ⟨-⟩
  · rfl
  · rw [hnames.eq hfixed]
  · rfl

end GenerationError

namespace Module

/-- The modules of two runs, with the given tables, whose options differ in the order of keys at
most. -/
structure Reorders (o o' : Options) (t t' : SymbolTables) (m m' : Module) : Prop where
  /-- First come the imports of enums, then those for directives, then those of scalars. -/
  imports : m.imports = (Enums.importGroups t.enums o.useTypeImports).flatten ++
    mappedImports t.directives o.useTypeImports ++ mappedImports t.scalars o.useTypeImports
  imports' : m'.imports = (Enums.importGroups t'.enums o.useTypeImports).flatten ++
    mappedImports t'.directives o.useTypeImports ++ mappedImports t'.scalars o.useTypeImports
  /-- The imports of one enum stay together. -/
  enumImports : Shuffles (o.SameEnumOrder o') (Enums.importGroups t.enums o.useTypeImports)
    (Enums.importGroups t'.enums o.useTypeImports)
  directiveImports : Shuffles (o.directiveMappings = o'.directiveMappings)
    (mappedImports t.directives o.useTypeImports) (mappedImports t'.directives o.useTypeImports)
  scalarImports : mappedImports t.scalars o.useTypeImports =
    mappedImports t'.scalars o.useTypeImports
  helpers : m.helpers = m'.helpers
  scalars : m.scalars = m'.scalars
  directives : Option.Rel (Declaration.Shuffles (o.directiveMappings = o'.directiveMappings))
    m.directives m'.directives
  definitions : m.definitions = m'.definitions
  further : m.further = m'.further

theorem Reorders.eq {t t' : SymbolTables} {m m' : Module} (h : Reorders o o' t t' m m')
    (henums : o.SameEnumOrder o') (hdirectives : o.directiveMappings = o'.directiveMappings) :
    m = m' := by
  have himports : m.imports = m'.imports := by
    rw [h.imports, h.imports', h.enumImports.eq henums, h.directiveImports.eq hdirectives,
      h.scalarImports]
  have hcontainer : m.directives = m'.directives := by
    simpa using map_eq_of_rel (f := id) (g := id) h.directives fun d d' hd => hd.eq hdirectives
  obtain ⟨-, -, -, -, -, hhelpers, hscalars, -, hdefinitions, hfurther⟩ := h
  cases m
  cases m'
  congr

theorem reorders_assemble {t t' : SymbolTables} (ho : o.Reorders o')
    (ht : SymbolTables.Reorders o o' t t') (s : Schema) (definitions : List (List Statement))
    (further : List String) :
    Reorders o o' t t' (assemble s o t definitions further)
      (assemble s o' t' definitions further) := by
  have hgroups := ht.shuffles_importGroups o.useTypeImports
  have hdirectives := ht.shuffles_directives.filterMap
    fun p => MappedType.importStatement? o.useTypeImports p.2
  have hcontainer := ht.rel_directiveContainer? s
  have hscalars := ht.scalars
  obtain ⟨-, -, -⟩ := ho
  refine ⟨rfl, rfl, hgroups, ?_, ?_, rfl, ?_, hcontainer, rfl, rfl⟩
  · rw [mappedImports, mappedImports, OrderedMap.values, OrderedMap.values, List.filterMap_map,
      List.filterMap_map]
    exact hdirectives
  · rw [hscalars]
  · change scalarContainer s o t.scalars = scalarContainer s o t'.scalars
    rw [hscalars]

/-- Two runs whose options differ in the order of keys at most both succeed, or both fail with
errors of one kind. What they write differs in the order of the enums' imports, and there only if
the enums are configured in another order; and in the order of the imports and of the entries for
directives, and there only if these are. -/
theorem generate_of_reorders (h : o.Reorders o') (s : Schema) (document : Option Document)
    (convert : Option (String → String)) (further : List String) :
    Parallel (GenerationError.SameKind (o.SameEnumOrder o'))
      (fun m m' => ∃ t t', SymbolTables.build s o convert = .ok t ∧
        SymbolTables.build s o' convert = .ok t' ∧ Reorders o o' t t' m m')
      (generate s o document convert further) (generate s o' document convert further) ∧
    (o.SameEnumOrder o' → o.directiveMappings = o'.directiveMappings →
      generate s o document convert further = generate s o' document convert further) := by
  have hconversion : SymbolTables.conversion o' convert = SymbolTables.conversion o convert := by
    obtain ⟨-, -, -⟩ := h
    rfl
  have hruns : Parallel (GenerationError.SameKind (o.SameEnumOrder o'))
      (fun m m' => ∃ t t', SymbolTables.build s o convert = .ok t ∧
        SymbolTables.build s o' convert = .ok t' ∧ Reorders o o' t t' m m')
      (generate s o document convert further) (generate s o' document convert further) := by
    rw [generate_eq, generate_eq, hconversion]
    refine .of_bind .refl fun f hf => ?_
    have hconvert := eq_ok_of_mapError hf
    refine ((SymbolTables.parallel_build h s f).mapError fun _ _ => .tables).bind
      fun t t' ht ht' htables => ?_
    rw [(FoldContext.reorders_ofTables h htables s f).result_eq]
    refine .of_bind .refl fun definitions _ => .ok ⟨t, t', ?_, ?_, ?_⟩
    · rw [SymbolTables.build_of_conversion hconvert]
      exact eq_ok_of_mapError ht
    · rw [SymbolTables.build_of_conversion (hconversion.trans hconvert)]
      exact eq_ok_of_mapError ht'
    · exact reorders_assemble h htables s definitions further
  refine ⟨hruns, fun henums hdirectives => hruns.eq ?_ ?_⟩
  · exact fun e e' he => he.eq henums
  · rintro m m' ⟨t, t', -, -, hm⟩
    exact hm.eq henums hdirectives

end Module

namespace Options

/-- Options with two keys in every map. -/
def keysForth : Options where
  scalars := ⟨[("S", "./s#S"), ("T", "number")], by decide⟩
  enumValues := some (.each ⟨[("E", .type "./e#E"),
    ("F", .constants ⟨[("A", .text "a"), ("B", .text "b")], by decide⟩)], by decide⟩)
  directiveMappings := ⟨[("x", "./x#X"), ("y", "./y#Y")], by decide⟩

/-- The same options with the keys of all maps the other way round. -/
def keysBack : Options :=
  keysForth.withMappings ⟨[("T", "number"), ("S", "./s#S")], by decide⟩
    (some (.each ⟨[("F", .constants ⟨[("B", .text "b"), ("A", .text "a")], by decide⟩),
      ("E", .type "./e#E")], by decide⟩))
    ⟨[("y", "./y#Y"), ("x", "./x#X")], by decide⟩

/-- The same options with scalars and the values of an enum the other way round. -/
def valuesBack : Options :=
  keysForth.withMappings keysBack.scalars
    (some (.each ⟨[("E", .type "./e#E"),
      ("F", .constants ⟨[("B", .text "b"), ("A", .text "a")], by decide⟩)], by decide⟩))
    keysForth.directiveMappings

theorem reorders_keysBack : keysForth.Reorders keysBack := by
  refine .mk (OrderedMap.reorders_of_perm (.swap ..)) (.some (.each ?_))
    (OrderedMap.reorders_of_perm (.swap ..))
  refine OrderedMap.reorders_iff.2 ⟨_, .swap .., .cons ⟨rfl, ?_⟩ (.cons ⟨rfl, ?_⟩ .nil)⟩
  · exact .constants (OrderedMap.reorders_of_perm (.swap ..))
  · exact .type "./e#E"

theorem reorders_valuesBack : keysForth.Reorders valuesBack := by
  refine .mk (OrderedMap.reorders_of_perm (.swap ..)) (.some (.each ?_)) (.refl fun _ => rfl)
  refine OrderedMap.reorders_iff.2 ⟨_, .refl _, .cons ⟨rfl, ?_⟩ (.cons ⟨rfl, ?_⟩ .nil)⟩
  · exact .type "./e#E"
  · exact .constants (OrderedMap.reorders_of_perm (.swap ..))

end Options

namespace Module

/-- A document with two scalars, two enums and two directives. -/
def twoOfEach : String :=
  "directive @x on ARGUMENT_DEFINITION directive @y on ARGUMENT_DEFINITION scalar S scalar T " ++
    "enum E \x7b A \x7d enum F \x7b A B \x7d type Q \x7b e(i: S @x @y): E f: F t: T \x7d"

/-- Imports and the container for directives tell the reverse order of all keys apart; nothing
does if scalars and the values of an enum are the only ones in reverse order. -/
theorem generate_of_reorders_twoOfEach :
    ∃ l m m', LoadedSchema.ofText twoOfEach = .ok l ∧
      generate l.schema .keysForth none none [] = .ok m ∧
      generate l.schema .keysBack none none [] = .ok m' ∧
      (∃ t t', Reorders .keysForth .keysBack t t' m m') ∧
      m.imports ≠ m'.imports ∧ m.directives ≠ m'.directives ∧
      generate l.schema .valuesBack none none [] = .ok m := by
  have hloads : (LoadedSchema.ofText twoOfEach).toOption.any fun l =>
      (generate l.schema .keysForth none none []).toOption.any fun m =>
        (generate l.schema .keysBack none none []).toOption.any fun m' =>
          decide (m.imports ≠ m'.imports ∧ m.directives ≠ m'.directives) := by
    decide +kernel
  simp only [Option.any_eq_true, decide_eq_true_eq] at hloads
  obtain ⟨l, hl, m, hm, m', hm', himports, hdirectives⟩ := hloads
  obtain ⟨hruns, -⟩ := generate_of_reorders Options.reorders_keysBack l.schema none none []
  obtain ⟨-, hsame⟩ := generate_of_reorders Options.reorders_valuesBack l.schema none none []
  rw [eq_ok_of_toOption hm, eq_ok_of_toOption hm'] at hruns
  rcases hruns with ⟨t, t', -, -, hreorders⟩ | -
  refine ⟨l, m, m', eq_ok_of_toOption hl, eq_ok_of_toOption hm, eq_ok_of_toOption hm',
    ⟨t, t', hreorders⟩, himports, hdirectives, ?_⟩
  rw [← hsame rfl rfl]
  exact eq_ok_of_toOption hm

end Module

end SdlTypes
