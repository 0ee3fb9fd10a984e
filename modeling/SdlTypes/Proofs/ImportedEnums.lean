import SdlTypes.Proofs.CommentRemoval
import SdlTypes.Proofs.LoadedSchema
import SdlTypes.Proofs.Tables
import SdlTypes.Proofs.WellFormed

/-!
# Imported enums

An enum that comes from another module is written under the identifier that its own name converts
to, whatever it is called where it comes from. So its import has to bind that identifier.
`ImportStatement.boundName` is what a statement binds, `Options.PointsToExports` says that the
options name exports in one of the usual forms, and `Enums.exists_bound_import` that then each
enum from another module has a statement that binds its identifier.
-/

namespace SdlTypes

open Sdl

/-! ## Texts without blanks -/

namespace Text

/-- A text without the blank character. -/
def SpaceFree (s : String) : Prop :=
  ' ' ∉ s.toList

instance (s : String) : Decidable (SpaceFree s) :=
  inferInstanceAs (Decidable (¬_))

theorem SpaceFree.trim {s : String} (h : SpaceFree s) : SpaceFree (trim s) := by
  rw [SpaceFree, Text.trim, String.toList_ofList, trimChars]
  intro hmem
  have hprefix := (dropEndWhile_isPrefix isBlank (s.toList.dropWhile isBlank)).subset hmem
  exact h ((List.dropWhile_suffix isBlank).subset hprefix)

theorem SpaceFree.cut?_as {s : String} (h : SpaceFree s) : cut? " as " s = none :=
  cut?_eq_none (by decide) h

theorem SpaceFree.cut?_append_as {s : String} (h : SpaceFree s) (t : String) :
    cut? " as " (s ++ " as " ++ t) = some (s, t) :=
  cut?_append (by decide) h t

theorem SpaceFree.of_cut? {mark s before after : String} (h : SpaceFree s)
    (hcut : cut? mark s = some (before, after)) : SpaceFree before := by
  obtain ⟨⟨front, back⟩, hchars, heq⟩ := Option.map_eq_some_iff.1 hcut
  cases heq
  rw [SpaceFree, String.toList_ofList]
  exact fun hmem => h (subset_of_cutChars? hchars hmem)

end Text

open Text

theorem Sdl.IsName.spaceFree {s : String} (h : IsName s) : SpaceFree s := by
  obtain ⟨c, rest, hs, hc, hrest⟩ := h
  rw [SpaceFree, hs, List.mem_cons, not_or]
  refine ⟨fun heq => ?_, fun hmem => ?_⟩
  · subst heq
    exact absurd hc (by decide)
  · exact absurd (hrest ' ' hmem) (by decide)

/-- The enums of a loaded schema are spelled as names, and none of them has the name of a built-in
scalar. -/
theorem LoadedSchema.isName_of_mem_enums {l : LoadedSchema}
    (h : ofDocument l.document = .ok l) (hd : l.document.WellFormed) {t : NamedType}
    (ht : t ∈ l.schema.enums) : IsName t.name ∧ t.name ∉ BuiltIn.scalars := by
  obtain ⟨hmem, hkind⟩ := List.mem_filter.1 ht
  obtain ⟨hk, hr⟩ := Bool.and_eq_true_iff.1 hkind
  have hreserved : Schema.isReserved t.name = false := by simpa using hr
  have hbuiltIn {name : String} {kind : TypeKind} (hname : BuiltIn.kind? name = some kind)
      (heq : t = .builtIn name kind) : False := by
    subst heq
    rcases BuiltIn.mem_scalars_or_isReserved hname with hs | hs
    · rw [BuiltIn.kind?_eq_some_scalar hs] at hname
      cases hname
      cases hk
    · exact absurd hs (Bool.eq_false_iff.1 hreserved)
  rw [(eq_of_ofDocument h).1] at hmem
  rcases Schema.mem_types_ofDocument hmem with ⟨u, hu, rfl⟩ | ⟨name, kind, heq, hname⟩
  · cases hkind? : BuiltIn.kind? u.name with
    | some kind => exact (hbuiltIn hkind? (by rw [Schema.typeOf, hkind?])).elim
    | none =>
      rw [Schema.name_typeOf]
      refine ⟨(hd.types u hu).name, fun hs => ?_⟩
      rw [BuiltIn.kind?_eq_some_scalar hs] at hkind?
      cases hkind?
  · exact (hbuiltIn hname heq).elim

/-! ## What statements bind -/

/-- The identifier that an import statement binds. -/
def ImportStatement.boundName : ImportStatement → String
  | .default name _ _ => name
  | .named specifier _ _ => ((cut? " as " specifier).map Prod.snd).getD specifier
  | .root name _ _ => name
  | .member name _ => name

/-- An enum from another module has a statement that binds its identifier, if no blank is in the
way. -/
theorem EnumSymbol.exists_bound_import {e : EnumSymbol} {source exported imported : String}
    {isDefault : Bool} (ht : e.target = .external source exported imported isDefault)
    (h : isDefault = true ∨ SpaceFree exported) (typesOnly : Bool) :
    ∃ s ∈ e.imports typesOnly, s.boundName = e.identifier := by
  unfold imports
  rw [ht]
  dsimp only
  by_cases hd : isDefault = true
  · rw [if_pos hd]
    exact ⟨_, List.mem_singleton_self _, rfl⟩
  have hfree := h.resolve_left hd
  rw [if_neg hd]
  by_cases hi : imported ≠ exported
  · rw [if_pos hi]
    exact ⟨.member e.identifier exported, by simp, rfl⟩
  rw [if_neg hi]
  by_cases hr : exported ≠ e.identifier
  · rw [if_pos hr]
    refine ⟨_, List.mem_singleton_self _, ?_⟩
    rw [ImportStatement.boundName, hfree.cut?_append_as]
    rfl
  · rw [if_neg hr]
    rw [not_not.1 hr] at hfree
    refine ⟨_, List.mem_singleton_self _, ?_⟩
    change ((cut? " as " e.identifier).map Prod.snd).getD e.identifier = _
    rw [hfree.cut?_as]
    rfl

/-! ## Pointers to exports -/

/-- The forms in which a text names an export: the default export, an export or a member of one
by its path, and an export under another name. -/
inductive IsExport : String → Prop
  | default : IsExport "default"
  | path {path : String} (h : SpaceFree path) : IsExport path
  | renamed {exported : String} (h : SpaceFree exported) (other : String) :
    IsExport (exported ++ " as " ++ other)

/-- What the options configure for enums in other modules names exports. -/
def Options.PointsToExports (o : Options) : Prop :=
  ∀ name pointer, (name, EnumPointer.type pointer) ∈ (Enums.configured o).entries →
    ∀ source identifier, cut? "#" pointer = some (source, identifier) → IsExport (trim identifier)

namespace Enums

/-- What an export is called when it is imported holds no blank, unless it is the default one. -/
theorem spaceFree_of_target {pointer name source exported imported : String} {isDefault : Bool}
    (hp : ∀ source identifier, cut? "#" pointer = some (source, identifier) →
      IsExport (trim identifier))
    (h : target pointer name = .external source exported imported isDefault) :
    isDefault = true ∨ SpaceFree exported := by
  unfold target MappedType.parse at h
  cases hcut : cut? "#" pointer with
  | none =>
    rw [hcut] at h
    cases h
  | some parts =>
    obtain ⟨module, identifier⟩ := parts
    have hexport := hp module identifier hcut
    rw [hcut] at h
    dsimp only at h
    unfold MappedType.imported at h
    by_cases hdefault : trim identifier = "default"
    · rw [if_pos hdefault] at h
      dsimp only at h
      split at h <;>
      · cases h
        exact .inl rfl
    · rw [if_neg hdefault] at h
      refine .inr ?_
      generalize trim identifier = exportText at hexport h hdefault
      cases hexport with
      | default => exact absurd rfl hdefault
      | path hfree =>
        rw [hfree.cut?_as] at h
        dsimp only at h
        cases hdot : cut? "." exportText with
        | none =>
          rw [hdot] at h
          simp only [if_true, hfree.cut?_as] at h
          cases h
          exact hfree
        | some path =>
          rw [hdot] at h
          simp only [(hfree.of_cut? hdot).cut?_as] at h
          cases h
          exact hfree
      | renamed hfree other =>
        rw [hfree.cut?_append_as] at h
        simp only [hfree.trim.cut?_append_as] at h
        cases h
        exact hfree.trim.trim

/-- Internal values do not bring a type for an enum. -/
theorem mem_of_mem_addInternalValue {pointers : OrderedMap EnumPointer}
    {enumName valueName name pointer : String} {value : Constant}
    (h : (name, EnumPointer.type pointer) ∈
      (addInternalValue pointers enumName valueName value).entries) :
    (name, EnumPointer.type pointer) ∈ pointers.entries := by
  unfold addInternalValue at h
  split at h
  · exact h
  all_goals
    rcases OrderedMap.mem_upsert h with heq | h
    · cases heq
    · exact h

/-- What is in a map after a walk was there before, if no step of the walk brings it. -/
theorem mem_of_mem_foldl {α : Type} {step : OrderedMap EnumPointer → α → OrderedMap EnumPointer}
    {p : String × EnumPointer} (hstep : ∀ m x, p ∈ (step m x).entries → p ∈ m.entries) (l : List α)
    {m : OrderedMap EnumPointer} (h : p ∈ (l.foldl step m).entries) : p ∈ m.entries := by
  induction l generalizing m with
  | nil => exact h
  | cons x l ih => exact hstep m x (ih h)

theorem mem_of_mem_withInternalValues {enums : List NamedType}
    {pointers : OrderedMap EnumPointer} {name pointer : String}
    (h : (name, EnumPointer.type pointer) ∈ (withInternalValues enums pointers).entries) :
    (name, EnumPointer.type pointer) ∈ pointers.entries :=
  mem_of_mem_foldl (fun _ _ => mem_of_mem_foldl (fun _ _ => mem_of_mem_addInternalValue) _) enums h

variable {s : Schema} {o : Options} {convert : String → String}

/-- A pointer to a type among those of the enums has been configured. -/
theorem mem_configured_of_pointersOf {pointers : OrderedMap EnumPointer}
    (h : pointersOf s o = .ok pointers) {name pointer : String}
    (hmem : (name, EnumPointer.type pointer) ∈ pointers.entries) :
    (name, EnumPointer.type pointer) ∈ (configured o).entries := by
  unfold pointersOf at h
  split_ifs at h
  · cases h
    exact hmem
  · split at h
    · cases h
    · cases h
      exact mem_of_mem_withInternalValues hmem

/-- Every enum of a table that comes from another module has a statement that binds its
identifier. -/
theorem exists_bound_import {table : OrderedMap EnumSymbol}
    (h : Enums.table s o convert = .ok table) (ho : o.PointsToExports)
    (hs : ∀ t ∈ s.enums, SpaceFree t.name) {name : String} {e : EnumSymbol}
    (he : (name, e) ∈ table.entries) (hx : e.isExternal = true) (typesOnly : Bool) :
    ∃ s ∈ e.imports typesOnly, s.boundName = e.identifier := by
  obtain ⟨t, ht, source, rfl, rfl⟩ | ⟨pointers, pointer, hp, hmem, rfl⟩ :=
    exists_of_mem_table h he
  · exact EnumSymbol.exists_bound_import rfl (.inr (hs t ht)) typesOnly
  · cases pointer with
    | constants values => cases hx
    | type pointer =>
      have hexport := ho name pointer (mem_configured_of_pointersOf hp hmem)
      cases htarget : target pointer name with
      | external source exported imported isDefault =>
        exact EnumSymbol.exists_bound_import htarget (spaceFree_of_target hexport htarget) typesOnly
      | _ =>
        rw [symbol, EnumSymbol.isExternal, htarget] at hx
        cases hx

/-- The statements of an enum are among the imports of its table. -/
theorem mem_imports {table : OrderedMap EnumSymbol} {name : String} {e : EnumSymbol}
    (he : (name, e) ∈ table.entries) {typesOnly : Bool} {s : ImportStatement}
    (hs : s ∈ e.imports typesOnly) : s ∈ imports table typesOnly :=
  List.mem_flatMap.2 ⟨e, List.mem_map_of_mem he, hs⟩

end Enums

end SdlTypes
