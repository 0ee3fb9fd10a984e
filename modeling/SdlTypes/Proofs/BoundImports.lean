import SdlTypes.Proofs.FoldOutcome
import SdlTypes.Proofs.ImportedEnums

/-!
# What imports bind

The imports of a module are those of enums, of directives, then of scalars, each in the order of its
table, and none of them looks at the others. `Options.importedNames` lists the identifiers that they
bind, read off the exports that are configured, and `Module.boundNames_imports` says that a module
binds just these, one after another. So an identifier is bound twice if and only if the list has it
twice: nothing keeps two scalars from one export, or two enums from one namespace.
-/

namespace SdlTypes

open Sdl Text

/-! ## Identifiers -/

namespace Text

theorem dropWhile_eq_self {p : Char → Bool} {l : List Char} (h : ∀ c ∈ l.head?, p c = false) :
    l.dropWhile p = l := by
  cases l with
  | nil => rfl
  | cons c l => rw [List.dropWhile_cons_of_neg (by simpa using h c rfl)]

/-- Nothing is trimmed between two characters that are no blanks. -/
theorem trim_eq_self {s : String} (hfirst : ∀ c ∈ s.toList.head?, isBlank c = false)
    (hlast : ∀ c ∈ s.toList.getLast?, isBlank c = false) : trim s = s := by
  rw [trim, trimChars, dropWhile_eq_self hfirst, dropEndWhile, dropWhile_eq_self,
    List.reverse_reverse, String.ofList_toList]
  rwa [List.head?_reverse]

/-- A text of characters that are no blanks. -/
structure BlankFree (s : String) : Prop where
  nonempty : s ≠ ""
  isBlank : ∀ c ∈ s.toList, isBlank c = false

instance (s : String) : Decidable (BlankFree s) :=
  decidable_of_iff (s ≠ "" ∧ s.toList.all (fun c => !Text.isBlank c) = true) <| by
    simp only [List.all_eq_true, Bool.not_eq_true']
    exact ⟨fun h => ⟨h.1, h.2⟩, fun h => ⟨h.nonempty, h.isBlank⟩⟩

namespace BlankFree

variable {s t : String}

theorem toList_ne_nil (h : BlankFree s) : s.toList ≠ [] := by
  simpa using h.nonempty

theorem trim (h : BlankFree s) : trim s = s :=
  trim_eq_self (fun c hc => h.isBlank c (List.mem_of_mem_head? hc))
    fun c hc => h.isBlank c (List.mem_of_mem_getLast? hc)

theorem trim_append (hs : BlankFree s) (ht : BlankFree t)
    (between : String) : Text.trim (s ++ between ++ t) = s ++ between ++ t := by
  refine trim_eq_self (fun c hc => ?_) fun c hc => ?_
  · rw [String.toList_append, String.toList_append, List.append_assoc,
      List.head?_append_of_ne_nil _ hs.toList_ne_nil] at hc
    exact hs.isBlank c (List.mem_of_mem_head? hc)
  · rw [String.toList_append, List.getLast?_append_of_ne_nil _ ht.toList_ne_nil] at hc
    exact ht.isBlank c (List.mem_of_mem_getLast? hc)

theorem spaceFree (h : BlankFree s) : SpaceFree s := fun hmem => by
  have hblank := h.isBlank ' ' hmem
  revert hblank
  decide

end BlankFree

/-- A text that may stand for an identifier of another module. -/
structure IsIdentifier (s : String) : Prop extends BlankFree s where
  dotFree : '.' ∉ s.toList

instance (s : String) : Decidable (IsIdentifier s) :=
  decidable_of_iff (BlankFree s ∧ '.' ∉ s.toList)
    ⟨fun h => ⟨h.1, h.2⟩, fun h => ⟨h.toBlankFree, h.dotFree⟩⟩

end Text

/-! ## Exports -/

/-- What a text may point to in a module. -/
inductive Export where
  /-- The default export. -/
  | default
  /-- A named export. -/
  | named (name : String)
  /-- A named export under another name. -/
  | renamed (name other : String)
  /-- A member of a named export, by the path behind it. -/
  | member (root path : String)
  deriving DecidableEq

namespace Export

/-- How an export is written. -/
def text : Export → String
  | .default => "default"
  | .named name => name
  | .renamed name other => name ++ " as " ++ other
  | .member root path => root ++ "." ++ path

/-- The names in an export are identifiers, and the default export is not given by a name. -/
def IsSound : Export → Prop
  | .default => True
  | .named name => IsIdentifier name ∧ name ≠ "default"
  | .renamed name other => IsIdentifier name ∧ IsIdentifier other
  | .member root path => IsIdentifier root ∧ BlankFree path

instance : (e : Export) → Decidable e.IsSound
  | .default => inferInstanceAs (Decidable True)
  | .named name => inferInstanceAs (Decidable (IsIdentifier name ∧ name ≠ "default"))
  | .renamed name other => inferInstanceAs (Decidable (IsIdentifier name ∧ IsIdentifier other))
  | .member root path => inferInstanceAs (Decidable (IsIdentifier root ∧ BlankFree path))

/-- The identifier for an export that is configured for a name. The ending is for names that are
imported as they are. -/
def localName (name ending : String) : Export → String
  | .default => name ++ ending
  | .named exported => exported ++ ending
  | .renamed _ other => other
  | .member root _ => root

/-- The identifiers for an export that is configured for an enum with an identifier. -/
def enumNames (identifier : String) : Export → List String
  | .member root _ => [root, identifier]
  | _ => [identifier]

/-- What a configured text denotes: an export of some module, or itself without a number sign. -/
def DenotedBy (pointer : String) : Option Export → Prop
  | none => '#' ∉ pointer.toList
  | some e => e.IsSound ∧ ∃ source, '#' ∉ source.toList ∧ pointer = source ++ "#" ++ e.text

theorem IsSound.trim_text {e : Export} (h : e.IsSound) : trim e.text = e.text := by
  cases e with
  | default => decide
  | named name => exact h.1.trim
  | renamed name other => exact h.1.trim_append h.2.toBlankFree _
  | member root path => exact h.1.trim_append h.2 _

end Export

namespace MappedType

/-- The mapped type for a text that points to an export. -/
theorem parse_of_denotedBy {pointer : String} {e : Export} (h : Export.DenotedBy pointer (some e)) :
    ∃ source, ∀ name ending, parse pointer name ending = imported source e.text name ending := by
  obtain ⟨he, source, hsource, rfl⟩ := h
  have hcut : cut? "#" (source ++ "#" ++ e.text) = some (source, e.text) :=
    cut?_append (by decide) hsource e.text
  refine ⟨source, fun name ending => ?_⟩
  rw [parse, hcut]
  dsimp only
  rw [he.trim_text]

theorem parse_of_inline {pointer : String} (h : Export.DenotedBy pointer none)
    (name ending : String) : parse pointer name ending = inline pointer := by
  rw [parse, cut?_eq_none (by decide) h]

/-- The mapped type of an export, form by form. -/
theorem imported_eq {e : Export} (he : e.IsSound) (source name ending : String) :
    imported source e.text name ending =
      match e with
      | .default => ⟨name ++ ending, some ⟨source, name ++ ending, true⟩⟩
      | .named exported =>
        if ending = "" then ⟨exported, some ⟨source, exported, false⟩⟩
        else
          ⟨exported ++ ending, some ⟨source, exported ++ " as " ++ (exported ++ ending), false⟩⟩
      | .renamed exported other => ⟨other, some ⟨source, exported ++ " as " ++ other, false⟩⟩
      | .member root path => ⟨root ++ "." ++ path, some ⟨source, root, false⟩⟩ := by
  rw [imported]
  cases e with
  | default => rfl
  | named exported =>
    obtain ⟨hexported, hne⟩ := he
    have hdot : cut? "." exported = none := cut?_eq_none (by decide) hexported.dotFree
    rw [Export.text, if_neg hne, hexported.spaceFree.cut?_as]
    simp only [hdot, String.append_assoc]
  | renamed exported other =>
    obtain ⟨hexported, hother⟩ := he
    have hne : exported ++ " as " ++ other ≠ "default" := fun heq => by
      have hmem : ' ' ∈ (exported ++ " as " ++ other).toList := by simp
      rw [heq] at hmem
      revert hmem
      decide
    rw [Export.text, if_neg hne, hexported.spaceFree.cut?_append_as]
    simp only [hexported.trim, hother.trim]
  | member root path =>
    obtain ⟨hroot, hpath⟩ := he
    have hne : root ++ "." ++ path ≠ "default" := fun heq => by
      have hmem : '.' ∈ (root ++ "." ++ path).toList := by simp
      rw [heq] at hmem
      revert hmem
      decide
    have hfree : SpaceFree (root ++ "." ++ path) := by
      have hr := hroot.spaceFree
      have hp := hpath.spaceFree
      unfold SpaceFree at hr hp ⊢
      simp [hr, hp]
    rw [Export.text, if_neg hne, hfree.cut?_as]
    have hdot : cut? "." (root ++ "." ++ path) = some (root, path) :=
      cut?_append (by decide) hroot.dotFree path
    simp only [hdot]

end MappedType

/-! ## What single imports bind -/

namespace ImportStatement

theorem boundName_named {name : String} (h : SpaceFree name) (source : String) (typesOnly : Bool) :
    (named name source typesOnly).boundName = name := by
  rw [boundName, h.cut?_as]
  rfl

theorem boundName_renamed {name : String} (h : SpaceFree name) (other source : String)
    (typesOnly : Bool) : (named (name ++ " as " ++ other) source typesOnly).boundName = other := by
  rw [boundName, h.cut?_append_as]
  rfl

end ImportStatement

/-- The import for a configured text binds the local name of the export that the text denotes. -/
theorem MappedType.map_boundName_importStatement? {pointer : String} {x : Option Export}
    (h : Export.DenotedBy pointer x) (name ending : String) (typesOnly : Bool) :
    ((parse pointer name ending).importStatement? typesOnly).map ImportStatement.boundName =
      x.map (Export.localName name ending) := by
  cases x with
  | none =>
    rw [parse_of_inline h]
    rfl
  | some e =>
    obtain ⟨source, hparse⟩ := parse_of_denotedBy h
    obtain ⟨he, -⟩ := h
    rw [hparse, imported_eq he, Option.map_some]
    cases e with
    | default => rfl
    | named exported =>
      have hfree := he.1.spaceFree
      dsimp only
      split_ifs with hending
      · rw [hending, Export.localName, String.append_empty]
        exact congrArg some (ImportStatement.boundName_named hfree _ _)
      · exact congrArg some (ImportStatement.boundName_renamed hfree _ _ _)
    | renamed exported other =>
      exact congrArg some (ImportStatement.boundName_renamed he.1.spaceFree _ _ _)
    | member root path =>
      exact congrArg some (ImportStatement.boundName_named he.1.spaceFree _ _)

namespace EnumSymbol

variable {e : EnumSymbol} {source exported imported : String}

theorem map_boundName_imports_default (h : e.target = .external source exported imported true)
    (typesOnly : Bool) : (e.imports typesOnly).map ImportStatement.boundName = [e.identifier] := by
  rw [imports, h]
  rfl

theorem map_boundName_imports_export (h : e.target = .external source exported exported false)
    (hfree : SpaceFree exported) (typesOnly : Bool) :
    (e.imports typesOnly).map ImportStatement.boundName = [e.identifier] := by
  rw [imports, h]
  dsimp only
  rw [if_neg Bool.false_ne_true, if_neg (not_not.2 rfl)]
  split_ifs with hrenamed
  · exact congrArg ([·]) (ImportStatement.boundName_renamed hfree _ _ _)
  · rw [not_not.1 hrenamed] at hfree
    exact congrArg ([·]) (ImportStatement.boundName_named hfree _ _)

theorem map_boundName_imports_member (h : e.target = .external source exported imported false)
    (hne : imported ≠ exported) (hroot : imported ≠ "") (typesOnly : Bool) :
    (e.imports typesOnly).map ImportStatement.boundName = [imported, e.identifier] := by
  rw [imports, h]
  dsimp only
  rw [if_neg Bool.false_ne_true, if_pos hne, if_neg hroot]
  rfl

end EnumSymbol

namespace Enums

variable {o : Options} {convert : String → String}

/-- The imports for an enum bind its identifier, behind the root of the path to it if there is
one. -/
theorem map_boundName_symbol {pointer : String} {x : Option Export}
    (h : Export.DenotedBy pointer x) (name : String) (typesOnly : Bool) :
    ((symbol o convert name (.type pointer)).imports typesOnly).map ImportStatement.boundName =
      x.elim [] (Export.enumNames (identifier o convert name)) := by
  cases x with
  | none =>
    rw [symbol, target, MappedType.parse_of_inline h]
    rfl
  | some e =>
    obtain ⟨source, hparse⟩ := MappedType.parse_of_denotedBy h
    obtain ⟨he, -⟩ := h
    have htarget : (symbol o convert name (.type pointer)).target = target pointer name := rfl
    unfold target at htarget
    rw [hparse, MappedType.imported_eq he] at htarget
    cases e with
    | default =>
      dsimp only at htarget
      cases hcut : cut? " as " (name ++ "") <;>
      · rw [hcut] at htarget
        exact EnumSymbol.map_boundName_imports_default htarget typesOnly
    | named exported =>
      simp only [if_true, he.1.spaceFree.cut?_as] at htarget
      exact EnumSymbol.map_boundName_imports_export htarget he.1.spaceFree typesOnly
    | renamed exported other =>
      simp only [he.1.spaceFree.cut?_append_as, he.1.trim] at htarget
      exact EnumSymbol.map_boundName_imports_export htarget he.1.spaceFree typesOnly
    | member root path =>
      simp only [he.1.spaceFree.cut?_as] at htarget
      refine EnumSymbol.map_boundName_imports_member htarget ?_ he.1.nonempty typesOnly
      rw [Ne, String.append_assoc, eq_comm, String.append_eq_left_iff]
      simp

end Enums

/-! ## What tables bind -/

namespace OrderedMap

variable {α β : Type}

/-- What is read off the values of a map is not changed by an entry of which nothing is read. -/
theorem flatMap_upsert {f : String × α → List β} {key : String} {value : α}
    {l : List (String × α)} (hold : ∀ v, (key, v) ∈ l → f (key, v) = [])
    (hnew : f (key, value) = []) : (upsert key value l).flatMap f = l.flatMap f := by
  induction l with
  | nil => rw [upsert, List.flatMap_singleton, hnew]; rfl
  | cons p l ih =>
    obtain ⟨k, v⟩ := p
    rw [upsert]
    split_ifs with hk
    · subst hk
      rw [List.flatMap_cons, List.flatMap_cons, hnew, hold v List.mem_cons_self]
    · rw [List.flatMap_cons, List.flatMap_cons, ih fun v hv => hold v (List.mem_cons_of_mem _ hv)]

end OrderedMap

namespace Enums

variable {β : Type}

/-- What is read off the configured types of enums is not changed by internal values. -/
theorem flatMap_addInternalValue {f : String × EnumPointer → List β}
    (hf : ∀ name values, f (name, .constants values) = []) (m : OrderedMap EnumPointer)
    (enumName valueName : String) (value : Constant) :
    (addInternalValue m enumName valueName value).entries.flatMap f = m.entries.flatMap f := by
  unfold addInternalValue
  cases hfind : m.find? enumName with
  | none =>
    refine OrderedMap.flatMap_upsert (fun v hv => ?_) (hf _ _)
    rw [OrderedMap.find?_eq_some_iff.2 hv] at hfind
    cases hfind
  | some pointer =>
    cases pointer with
    | type pointer => rfl
    | constants values =>
      refine OrderedMap.flatMap_upsert (fun v hv => ?_) (hf _ _)
      rw [OrderedMap.find?_eq_some_iff.2 hv] at hfind
      cases hfind
      exact hf _ _

theorem flatMap_withInternalValues {f : String × EnumPointer → List β}
    (hf : ∀ name values, f (name, .constants values) = []) (enums : List NamedType)
    (m : OrderedMap EnumPointer) :
    (withInternalValues enums m).entries.flatMap f = m.entries.flatMap f := by
  unfold withInternalValues
  refine List.foldlRecOn enums _ (motive := fun x : OrderedMap EnumPointer =>
    x.entries.flatMap f = m.entries.flatMap f) rfl fun m₁ h₁ t _ => ?_
  refine List.foldlRecOn (internalValues t) _ (motive := fun x : OrderedMap EnumPointer =>
    x.entries.flatMap f = m.entries.flatMap f) h₁ fun m₂ h₂ v _ => ?_
  exact (flatMap_addInternalValue hf m₂ t.name v.1 v.2).trans h₂

end Enums

/-! ## What a module binds -/

namespace Options

/-- The texts that are configured for types. -/
def pointers (o : Options) : List String :=
  ((Enums.configured o).values.filterMap fun
    | .type pointer => some pointer
    | .constants _ => none) ++ o.directiveMappings.values ++ o.scalars.values

theorem mem_pointers {o : Options} {pointer : String} :
    pointer ∈ o.pointers ↔
      (∃ name, (name, EnumPointer.type pointer) ∈ (Enums.configured o).entries) ∨
        pointer ∈ o.directiveMappings.values ∨ pointer ∈ o.scalars.values := by
  rw [pointers, List.mem_append, List.mem_append, or_assoc, OrderedMap.values, List.mem_filterMap]
  refine or_congr_left ⟨?_, ?_⟩
  · rintro ⟨x, hx, hp⟩
    obtain ⟨⟨name, _⟩, hmem, rfl⟩ := List.mem_map.1 hx
    dsimp only at hp
    split at hp
    · cases hp
      exact ⟨name, hmem⟩
    · cases hp
  · rintro ⟨name, hmem⟩
    exact ⟨_, List.mem_map_of_mem hmem, rfl⟩

/-- The exports that the configured texts denote; none for a text that stands for itself. -/
def PointsTo (o : Options) (exports : String → Option Export) : Prop :=
  ∀ pointer ∈ o.pointers, Export.DenotedBy pointer (exports pointer)

variable (o : Options) (exports : String → Option Export) (s : Schema)

/-- The identifiers that are imported for enums. -/
def enumNames (convert : String → String) : List String :=
  match o.enumValues with
  | some (.module _) => s.enums.map fun t => Enums.identifier o convert t.name
  | _ => (Enums.configured o).entries.flatMap fun
    | (name, .type pointer) =>
      (exports pointer).elim [] (Export.enumNames (Enums.identifier o convert name))
    | (_, .constants _) => []

/-- The identifiers that are imported for directives. -/
def directiveNames : List String :=
  o.directiveMappings.entries.filterMap fun (name, pointer) =>
    (exports pointer).map (Export.localName name (o.directiveMappingSuffix.getD ""))

/-- The identifiers that are imported for scalars. -/
def scalarNames : List String :=
  (BuiltIn.scalars ++ s.customScalars).filterMap fun name =>
    (o.scalars.find? name).bind fun pointer => (exports pointer).map (Export.localName name "")

/-- The identifiers that are imported, one after another. -/
def importedNames (convert : String → String) : List String :=
  o.enumNames exports s convert ++ o.directiveNames exports ++ o.scalarNames exports s

end Options

section

variable {o : Options} {exports : String → Option Export} {s : Schema} {convert : String → String}

theorem Options.enumNames_of_each (h : ∀ source, o.enumValues ≠ some (.module source)) :
    o.enumNames exports s convert = (Enums.configured o).entries.flatMap fun
      | (name, .type pointer) =>
        (exports pointer).elim [] (Export.enumNames (Enums.identifier o convert name))
      | (_, .constants _) => [] := by
  unfold enumNames
  split
  · next source hmodule => exact absurd hmodule (h source)
  · rfl

namespace Enums

theorem flatMap_pointersOf {β : Type} {f : String × EnumPointer → List β}
    (hf : ∀ name values, f (name, .constants values) = []) {pointers : OrderedMap EnumPointer}
    (h : pointersOf s o = .ok pointers) :
    pointers.entries.flatMap f = (configured o).entries.flatMap f := by
  unfold pointersOf at h
  split_ifs at h
  · cases h
    rfl
  · split at h
    · cases h
    · cases h
      exact flatMap_withInternalValues hf _ _

theorem map_boundName_imports {table : OrderedMap EnumSymbol}
    (h : Enums.table s o convert = .ok table) (ho : o.PointsTo exports)
    (hs : ∀ t ∈ s.enums, SpaceFree t.name) (typesOnly : Bool) :
    (imports table typesOnly).map ImportStatement.boundName = o.enumNames exports s convert := by
  by_cases hmodule : ∃ source, o.enumValues = some (.module source)
  · obtain ⟨source, hmodule⟩ := hmodule
    rw [Options.enumNames, hmodule, imports, OrderedMap.values, entries_of_module h hmodule,
      List.map_map, List.flatMap_map, List.map_flatMap]
    dsimp only
    rw [List.map_eq_flatMap]
    exact List.flatMap_congr fun t ht =>
      EnumSymbol.map_boundName_imports_export rfl (hs t ht) typesOnly
  · rw [not_exists] at hmodule
    rw [table_of_each s convert hmodule] at h
    split_ifs at h
    obtain ⟨pointers, hpointers, rfl⟩ := exists_of_map h
    rw [Options.enumNames_of_each hmodule, imports, OrderedMap.values, OrderedMap.mapWithKey,
      List.map_map, List.flatMap_map, List.map_flatMap]
    refine (flatMap_pointersOf (fun name values => rfl) hpointers).trans ?_
    refine List.flatMap_congr fun p hp => ?_
    obtain ⟨name, pointer⟩ := p
    cases pointer with
    | constants values => rfl
    | type pointer =>
      exact map_boundName_symbol (ho _ (Options.mem_pointers.2 (.inl ⟨name, hp⟩))) name typesOnly

end Enums

theorem map_boundName_directiveTable (ho : o.PointsTo exports) (typesOnly : Bool) :
    (mappedImports (SymbolTables.directiveTable o) typesOnly).map ImportStatement.boundName =
      o.directiveNames exports := by
  rw [mappedImports, SymbolTables.directiveTable, OrderedMap.values, OrderedMap.mapWithKey,
    List.map_map, List.filterMap_map, List.map_filterMap, Options.directiveNames]
  refine List.filterMap_congr fun p hp => ?_
  have hpointer : p.2 ∈ o.pointers := Options.mem_pointers.2 (.inr (.inl (List.mem_map_of_mem hp)))
  exact MappedType.map_boundName_importStatement? (ho _ hpointer) _ _ typesOnly

namespace Scalars

/-- What is imported for a scalar. -/
theorem map_boundName_parse (ho : o.PointsTo exports) {name pointer : String}
    (h : o.scalars.find? name = some pointer) (typesOnly : Bool) :
    ((MappedType.parse pointer name "").importStatement? typesOnly).map
        ImportStatement.boundName =
      (exports pointer).map (Export.localName name "") := by
  refine MappedType.map_boundName_importStatement? (ho _ ?_) name "" typesOnly
  have hmem := OrderedMap.mem_entries_of_find? h
  exact Options.mem_pointers.2 (.inr (.inr (List.mem_map_of_mem hmem)))

theorem map_boundName_builtInEntry (ho : o.PointsTo exports) (name type : String)
    (typesOnly : Bool) :
    ((builtInEntry o name type).2.importStatement? typesOnly).map ImportStatement.boundName =
      (o.scalars.find? name).bind fun pointer =>
        (exports pointer).map (Export.localName name "") := by
  rw [builtInEntry]
  cases hfind : o.scalars.find? name with
  | none => rfl
  | some pointer =>
    rw [Option.bind_some, ← map_boundName_parse ho hfind typesOnly]
    dsimp only
    split_ifs with hempty
    · rw [hempty]
      rfl
    · rfl

theorem map_boundName_customEntry (ho : o.PointsTo exports) {name : String}
    {entry : String × MappedType} (h : customEntry o name = .ok entry) (typesOnly : Bool) :
    (entry.2.importStatement? typesOnly).map ImportStatement.boundName =
      (o.scalars.find? name).bind fun pointer =>
        (exports pointer).map (Export.localName name "") := by
  unfold customEntry at h
  cases hfind : o.scalars.find? name with
  | none =>
    rw [hfind] at h
    dsimp only at h
    split_ifs at h
    cases h
    rfl
  | some pointer =>
    rw [hfind] at h
    cases h
    exact map_boundName_parse ho hfind typesOnly

theorem map_boundName_table {table : OrderedMap MappedType} (h : Scalars.table s o = .ok table)
    (ho : o.PointsTo exports) (typesOnly : Bool) :
    (mappedImports table typesOnly).map ImportStatement.boundName = o.scalarNames exports s := by
  obtain ⟨custom, hc, h⟩ := exists_of_bind h
  cases h
  have hkeys : ((builtInEntries o ++ custom).map Prod.fst).Nodup := by
    rw [List.map_append, keys_builtInEntries, keys_of_mapM_customEntry hc]
    exact nodup_names s
  rw [mappedImports, OrderedMap.values, OrderedMap.entries_ofList hkeys, List.map_append,
    List.filterMap_append, List.map_append, Options.scalarNames, List.filterMap_append]
  congr 1
  · have hdefaults : BuiltIn.scalars = defaults.map Prod.fst := rfl
    rw [builtInEntries, hdefaults, List.map_map, List.filterMap_map, List.map_filterMap,
      List.filterMap_map]
    exact List.filterMap_congr fun p _ => map_boundName_builtInEntry ho p.1 p.2 typesOnly
  · rw [List.filterMap_map, List.map_filterMap]
    exact (filterMap_eq_of_forall₂ ((forall₂_of_mapM hc).imp fun name entry hentry =>
      (map_boundName_customEntry ho hentry typesOnly).symm)).symm

end Scalars

end

/-- A scalar under another name, and an enum that is a member of a namespace. -/
def Options.importing : Options where
  scalars := .ofList [("Cents", "./money#Money as Amount")]
  enumValues := some (.each (.ofList [("Hue", .type "./palette#Palette.Hue")]))

/-- Two scalars that are configured for one export. -/
def Options.sharedExport : Options where
  scalars := .ofList [("Cents", "./money#Money"), ("Euros", "./money#Money")]

end SdlTypes
