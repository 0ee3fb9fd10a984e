import SdlTypes.Proofs.BoundImports
import SdlTypes.Proofs.MergedValues

/-!
# What the identifiers of imported enums stand for

An import statement binds an identifier to an `Entity`: to an export of a module, or to a member of
what another identifier stands for. `ImportStatement.bindings?` reads off what statements in a row
bind.

A text that points into a module may leave blanks at its ends and several around `as`;
`Export.Denotes` says what export it means all the same. Whatever the export is called, and whatever
other name the text gives it, the statements for an enum bind the identifier that references to the
enum are written with, and bind it to that export (`Enums.imports_bind`). Only the root of a path to
a member is bound besides.
-/

namespace SdlTypes

open Sdl Text

/-! ## Blanks around words -/

namespace Text

/-- A text of so many blanks. -/
def spaces (n : Nat) : String :=
  String.ofList (List.replicate n ' ')

theorem isBlank_of_mem_spaces {n : Nat} : ∀ c ∈ (spaces n).toList, isBlank c = true := by
  intro c hc
  rw [spaces, String.toList_ofList] at hc
  rw [List.eq_of_mem_replicate hc]
  decide

/-- Blanks around a text without blanks are trimmed. -/
theorem BlankFree.trim_between {s before behind : String} (h : BlankFree s)
    (hbefore : ∀ c ∈ before.toList, Text.isBlank c = true)
    (hbehind : ∀ c ∈ behind.toList, Text.isBlank c = true) :
    Text.trim (before ++ s ++ behind) = s := by
  have hstart : (s.toList ++ behind.toList).dropWhile Text.isBlank =
      s.toList ++ behind.toList := by
    refine dropWhile_eq_self fun c hc => ?_
    rw [List.head?_append_of_ne_nil _ h.toList_ne_nil] at hc
    exact h.isBlank c (List.mem_of_mem_head? hc)
  refine String.toList_injective ?_
  rw [Text.trim, String.toList_ofList, trimChars, String.toList_append, String.toList_append,
    List.append_assoc, List.dropWhile_append_of_pos hbefore, hstart,
    dropEndWhile_append hbehind h.isBlank]

/-- Of several blanks in front of `as` the last one belongs to the mark. -/
theorem cutChars?_replicate_as (m : Nat) (t : List Char) :
    cutChars? [' ', 'a', 's', ' '] (List.replicate (m + 1) ' ' ++ 'a' :: 's' :: ' ' :: t) =
      some (List.replicate m ' ', t) := by
  induction m with
  | zero => rfl
  | succ m ih =>
    rw [List.replicate_succ, List.cons_append, cutChars?, ih]
    rfl

theorem SpaceFree.cut?_spaces_as {s : String} (h : SpaceFree s) (m n : Nat) (t : String) :
    cut? " as " (s ++ spaces (m + 1) ++ "as" ++ spaces (n + 1) ++ t) =
      some (s ++ spaces m, spaces n ++ t) := by
  have hchars : (s ++ spaces (m + 1) ++ "as" ++ spaces (n + 1) ++ t).toList =
      s.toList ++ (List.replicate (m + 1) ' ' ++
        'a' :: 's' :: ' ' :: (List.replicate n ' ' ++ t.toList)) := by
    simp only [spaces, String.toList_append, String.toList_ofList, List.append_assoc,
      List.replicate_succ (n := n)]
    rfl
  have hmark : " as ".toList = [' ', 'a', 's', ' '] := rfl
  rw [cut?, hchars, hmark, cutChars?_append_left h, cutChars?_replicate_as, Option.map_some,
    Option.map_some]
  refine congrArg some (Prod.ext ?_ ?_) <;> refine String.toList_injective ?_ <;>
    simp only [spaces, String.toList_append, String.toList_ofList]

end Text

/-! ## Bindings -/

/-- What an identifier that an import binds may stand for. -/
inductive Entity where
  /-- The default export of a module. -/
  | default (source : String)
  /-- A named export of a module. -/
  | export (source name : String)
  /-- A member of something else, by the path to it. -/
  | member (owner : Entity) (path : String)
  deriving DecidableEq

namespace ImportStatement

/-- The identifier that a statement binds with what it stands for, given what has been bound. A path
starts from an identifier that has been bound. -/
def binding? (bound : List (String × Entity)) : ImportStatement → Option (String × Entity)
  | .default name source _ => some (name, .default source)
  | .named specifier source _ =>
    match cut? " as " specifier with
    | some (name, other) => some (other, .export source name)
    | none => some (specifier, .export source specifier)
  | .root name source _ => some (name, .default source)
  | .member name path =>
    (cut? "." path).bind fun (start, rest) =>
      (bound.lookup start).map fun owner => (name, .member owner rest)

/-- All that is bound after some statements. -/
def bindings? (bound : List (String × Entity)) :
    List ImportStatement → Option (List (String × Entity))
  | [] => some bound
  | s :: rest => (s.binding? bound).bind fun b => bindings? (bound ++ [b]) rest

/-- A statement binds its own identifier, whatever this stands for. -/
theorem fst_of_binding? {bound : List (String × Entity)} {s : ImportStatement}
    {b : String × Entity} (h : s.binding? bound = some b) : b.1 = s.boundName := by
  cases s with
  | default name source typesOnly =>
    cases h
    rfl
  | named specifier source typesOnly =>
    unfold binding? at h
    cases hcut : cut? " as " specifier with
    | none =>
      simp only [hcut] at h
      cases h
      rw [boundName, hcut]
      rfl
    | some parts =>
      simp only [hcut] at h
      cases h
      rw [boundName, hcut]
      rfl
  | root name source typesOnly =>
    cases h
    rfl
  | member name path =>
    obtain ⟨parts, -, hmember⟩ := Option.bind_eq_some_iff.1 h
    obtain ⟨owner, -, rfl⟩ := Option.map_eq_some_iff.1 hmember
    rfl

/-- A list of statements binds one identifier each. -/
theorem map_fst_of_bindings? {bound bs : List (String × Entity)} {ss : List ImportStatement}
    (h : bindings? bound ss = some bs) :
    bs.map Prod.fst = bound.map Prod.fst ++ ss.map boundName := by
  induction ss generalizing bound with
  | nil =>
    cases h
    exact (List.append_nil _).symm
  | cons s ss ih =>
    obtain ⟨b, hb, h⟩ := Option.bind_eq_some_iff.1 h
    rw [ih h, List.map_append, List.append_assoc, List.map_cons, List.map_cons,
      fst_of_binding? hb]
    rfl

end ImportStatement

/-! ## Texts that denote exports -/

namespace Export

/-- What a trimmed text behind the number sign denotes. There may be several blanks on both sides of
`as`. -/
inductive Denotes : Export → String → Prop
  | default : Denotes .default "default"
  | named {name : String} (h : IsIdentifier name) (hne : name ≠ "default") :
    Denotes (.named name) name
  | renamed {name other : String} (h : IsIdentifier name) (hother : IsIdentifier other)
    (m n : Nat) :
    Denotes (.renamed name other) (name ++ spaces (m + 1) ++ "as" ++ spaces (n + 1) ++ other)
  | member {root path : String} (hroot : IsIdentifier root) (hpath : BlankFree path) :
    Denotes (.member root path) (root ++ "." ++ path)

/-- What the statements bind that import an export of a module under an identifier. -/
def bindings (source identifier : String) : Export → List (String × Entity)
  | .default => [(identifier, .default source)]
  | .named name => [(identifier, .export source name)]
  | .renamed name _ => [(identifier, .export source name)]
  | .member root path =>
    [(root, .default source), (identifier, .member (.default source) path)]

theorem Denotes.isSound {text : String} {x : Export} (h : x.Denotes text) : x.IsSound := by
  cases h with
  | default => trivial
  | named h hne => exact ⟨h, hne⟩
  | renamed h hother m n => exact ⟨h, hother⟩
  | member hroot hpath => exact ⟨hroot, hpath⟩

/-- A text is mapped like the export that it denotes, as that is written with single blanks. -/
theorem Denotes.imported_eq {text : String} {x : Export} (h : x.Denotes text)
    (source name ending : String) :
    MappedType.imported source text name ending =
      MappedType.imported source x.text name ending := by
  cases h with
  | default => rfl
  | named h hne => rfl
  | member hroot hpath => rfl
  | @renamed exported other h hother m n =>
    have hne : exported ++ spaces (m + 1) ++ "as" ++ spaces (n + 1) ++ other ≠ "default" :=
      fun heq => by
        have hmem : ' ' ∈ (exported ++ spaces (m + 1) ++ "as" ++ spaces (n + 1) ++ other).toList :=
          by simp [spaces]
        rw [heq] at hmem
        revert hmem
        decide
    have hexported : trim (exported ++ spaces m) = exported := by
      have htrim : trim ("" ++ exported ++ spaces m) = exported :=
        h.trim_between (by simp) isBlank_of_mem_spaces
      rwa [String.empty_append] at htrim
    have hrenamed : trim (spaces n ++ other) = other := by
      have htrim : trim (spaces n ++ other ++ "") = other :=
        hother.trim_between isBlank_of_mem_spaces (by simp)
      rwa [String.append_empty] at htrim
    have hsound : IsSound (.renamed exported other) := ⟨h, hother⟩
    rw [MappedType.imported_eq hsound, MappedType.imported, if_neg hne,
      h.spaceFree.cut?_spaces_as]
    simp only [hexported, hrenamed]

end Export

/-! ## The imports of an enum -/

namespace EnumSymbol

variable {e : EnumSymbol} {source exported imported : String}

theorem bindings?_imports_default (h : e.target = .external source exported imported true)
    (typesOnly : Bool) : ImportStatement.bindings? [] (e.imports typesOnly) =
      some (Export.bindings source e.identifier .default) := by
  rw [imports, h]
  rfl

theorem bindings?_imports_export (h : e.target = .external source exported exported false)
    (hfree : SpaceFree exported) (typesOnly : Bool) :
    ImportStatement.bindings? [] (e.imports typesOnly) =
      some (Export.bindings source e.identifier (.named exported)) := by
  rw [imports, h]
  dsimp only
  rw [if_neg Bool.false_ne_true, if_neg (not_not.2 rfl)]
  by_cases hsame : exported = e.identifier
  · rw [if_neg (not_not.2 hsame), ← hsame, MappedType.importOf, if_neg Bool.false_ne_true,
      ImportStatement.bindings?, ImportStatement.binding?, hfree.cut?_as]
    rfl
  · rw [if_pos hsame, ImportStatement.bindings?, ImportStatement.binding?,
      hfree.cut?_append_as]
    rfl

/-- The root of a path is bound first, and then the enum to what the path leads to from there. -/
theorem bindings?_imports_member {root path : String}
    (h : e.target = .external source (root ++ "." ++ path) root false) (hroot : IsIdentifier root)
    (typesOnly : Bool) : ImportStatement.bindings? [] (e.imports typesOnly) =
      some (Export.bindings source e.identifier (.member root path)) := by
  have hne : root ≠ root ++ "." ++ path := by
    rw [Ne, String.append_assoc, eq_comm, String.append_eq_left_iff]
    simp
  have hcut : cut? "." (root ++ "." ++ path) = some (root, path) :=
    cut?_append (by decide) hroot.dotFree path
  have hstatements : e.imports typesOnly =
      [.root root source typesOnly, .member e.identifier (root ++ "." ++ path)] := by
    rw [imports, h]
    dsimp only
    rw [if_neg Bool.false_ne_true, if_pos hne, if_neg hroot.nonempty]
  have hmember : (ImportStatement.member e.identifier (root ++ "." ++ path)).binding?
      [(root, .default source)] = some (e.identifier, .member (.default source) path) := by
    rw [ImportStatement.binding?, hcut, Option.bind_some]
    dsimp only
    rw [List.lookup_cons_self, Option.map_some]
  rw [hstatements, ImportStatement.bindings?, ImportStatement.binding?, Option.bind_some,
    List.nil_append, ImportStatement.bindings?, hmember]
  rfl

end EnumSymbol

namespace Enums

variable {s : Schema} {o : Options} {convert : String → String}

/-- The statements for a configured enum bind its identifier to the export that is denoted. -/
theorem bindings?_imports_symbol {source text : String} {x : Export}
    (hsource : '#' ∉ source.toList) (hx : x.Denotes (trim text)) (name : String)
    (typesOnly : Bool) :
    ImportStatement.bindings? []
        ((symbol o convert name (.type (source ++ "#" ++ text))).imports typesOnly) =
      some (x.bindings source (identifier o convert name)) := by
  have hparse : MappedType.parse (source ++ "#" ++ text) name "" =
      MappedType.imported source x.text name "" := by
    rw [MappedType.parse, cut?_append (by decide) hsource]
    exact hx.imported_eq source name ""
  have htarget : (symbol o convert name (.type (source ++ "#" ++ text))).target =
      target (source ++ "#" ++ text) name := rfl
  unfold target at htarget
  rw [hparse, MappedType.imported_eq hx.isSound] at htarget
  generalize trim text = trimmed at hx
  cases hx with
  | default =>
    dsimp only at htarget
    cases hcut : cut? " as " (name ++ "") <;>
    · rw [hcut] at htarget
      exact EnumSymbol.bindings?_imports_default htarget typesOnly
  | named h hne =>
    simp only [if_true, h.spaceFree.cut?_as] at htarget
    exact EnumSymbol.bindings?_imports_export htarget h.spaceFree typesOnly
  | renamed h hother m n =>
    simp only [h.spaceFree.cut?_append_as, h.trim] at htarget
    exact EnumSymbol.bindings?_imports_export htarget h.spaceFree typesOnly
  | member hroot hpath =>
    simp only [hroot.spaceFree.cut?_as] at htarget
    exact EnumSymbol.bindings?_imports_member htarget hroot typesOnly

end Enums

/-! ## Imported enums in a run -/

/-- An enum is referred to by its own identifier, since it is no scalar. -/
theorem Resolver.resolve_of_mem_enums {r : Resolver}
    (h : Scalars.table r.schema r.options = .ok r.scalars) {t : NamedType}
    (ht : t ∈ r.schema.enums) (hscalar : t.name ∉ BuiltIn.scalars) :
    r.resolve t.name = Enums.identifier r.options r.convert t.name := by
  obtain ⟨hmem, hkind⟩ := List.mem_filter.1 ht
  have hk : t.kind = .enum := beq_iff_eq.1 (Bool.and_eq_true_iff.1 hkind).1
  have hcustom : t.name ∉ r.schema.customScalars := by
    intro hmemName
    obtain ⟨u, hu, hname⟩ := List.mem_map.1 hmemName
    obtain ⟨hu, hscalarKind⟩ := List.mem_filter.1 hu
    rw [List.inj_on_of_nodup_map r.schema.nodup hu hmem hname, hk] at hscalarKind
    cases hscalarKind
  have hnot : ¬r.scalars.contains t.name = true := by
    rw [OrderedMap.contains_iff, Scalars.mem_keys_table h, not_or]
    exact ⟨hscalar, hcustom⟩
  have henum : r.schema.isEnum t.name = true := by
    rw [Schema.isEnum, Schema.find?_of_mem hmem, Option.any_some, hk]
    rfl
  rw [resolve, if_neg hnot, if_pos henum]
  rfl

/-- What the options import an enum from: the export that is configured for it, or the one of its
name if all enums come from one module. -/
inductive Options.ImportsEnum (o : Options) (name source : String) : Export → Prop
  | pointer {text : String} {x : Export}
    (h : (Enums.configured o).find? name = some (.type (source ++ "#" ++ text)))
    (hsource : '#' ∉ source.toList) (hx : x.Denotes (trim text)) : ImportsEnum o name source x
  | module (h : o.enumValues = some (.module source)) : ImportsEnum o name source (.named name)

/-- Only an enum from another module has imports. -/
theorem EnumSymbol.isExternal_of_imports {e : EnumSymbol} {typesOnly : Bool}
    (h : e.imports typesOnly ≠ []) : e.isExternal = true := by
  unfold imports at h
  unfold isExternal
  split at h
  · rfl
  · exact absurd rfl h

/-- An enum from another module is passed on under its identifier, if anything is exported. -/
theorem Fold.outcome_definition_of_isExternal {c : FoldContext} {d : TypeDef} {e : EnumSymbol}
    (hk : d.kind = .enum) (he : c.symbols.enums.find? d.name = some e)
    (hx : e.isExternal = true) (a : Ancestors) :
    outcome (definition c (.type d)) a = .ok (if c.options.noExport then []
      else [.reexport e.identifier c.options.useTypeImports]) := by
  rw [definition, hk]
  refine (outcome_enum c d a).trans ?_
  rw [FoldContext.enumStatements, he, Option.filter_some_pos hx]

namespace Enums

variable {s : Schema} {o : Options} {convert : String → String}

/-- An enum that the options import is in the table, and its statements bind its identifier to the
export. -/
theorem exists_bindings?_imports {table : OrderedMap EnumSymbol}
    (h : Enums.table s o convert = .ok table) {t : NamedType} (ht : t ∈ s.enums)
    (hname : SpaceFree t.name) {source : String} {x : Export}
    (hx : o.ImportsEnum t.name source x) :
    ∃ e, table.find? t.name = some e ∧ e.identifier = identifier o convert t.name ∧
      ∀ typesOnly, ImportStatement.bindings? [] (e.imports typesOnly) =
        some (x.bindings source (identifier o convert t.name)) := by
  cases hx with
  | pointer htext hsource hdenotes =>
    have heach : ∀ module, o.enumValues ≠ some (.module module) := by
      intro module hmodule
      rw [configured, hmodule] at htext
      cases htext
    exact ⟨_, find?_table_of_type h heach htext, rfl,
      bindings?_imports_symbol hsource hdenotes t.name⟩
  | module hmodule =>
    refine ⟨⟨identifier o convert t.name, .external source t.name t.name false⟩, ?_, rfl,
      EnumSymbol.bindings?_imports_export rfl hname⟩
    rw [OrderedMap.find?_eq_some_iff, entries_of_module h hmodule]
    exact List.mem_map_of_mem ht

/-- The statements of an enum stand together among the imports. -/
theorem imports_isInfix {table : OrderedMap EnumSymbol} {name : String} {e : EnumSymbol}
    (h : table.find? name = some e) (typesOnly : Bool) :
    e.imports typesOnly <:+: imports table typesOnly := by
  obtain ⟨before, behind, hentries⟩ := List.append_of_mem (OrderedMap.mem_entries_of_find? h)
  refine ⟨before.flatMap fun p => p.2.imports typesOnly,
    behind.flatMap fun p => p.2.imports typesOnly, ?_⟩
  rw [imports, OrderedMap.values, List.flatMap_map, hentries, List.flatMap_append,
    List.flatMap_cons, List.append_assoc]

/-- The enum `Signal`. -/
def signal : TypeDef :=
  ⟨none, "Signal", [], .enum [⟨none, "STOP", []⟩]⟩

/-- A schema with the enum `Signal` alone. -/
def signals : Schema where
  types := [.ofDefinition .document signal []]
  directives := []
  nodup := by decide

/-- The options that take the enum from another module, where it has a different name. -/
def signalOptions : Options where
  typesPrefix := "I"
  enumValues := some (.each (.ofList [("Signal", .type "./lights# Light  as   Lamp ")]))

end Enums

end SdlTypes
