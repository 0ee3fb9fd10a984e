import Mathlib.Data.List.Flatten
import SdlTypes.Proofs.Exports
import SdlTypes.Proofs.LoadedSchema
import SdlTypes.Proofs.MergedValues

/-!
# Enum constants

The constant that is written for an enum value has the first of three values that there is: the
one that is configured for it, the internal value that the schema gives it unless these are
ignored, and its name. `Enums.effective` says so without the table of enums, and
`Enums.constantValue_of_table` that the table is built for just that.

The values of an enum in a schema have different names (`Schema.DistinctValues`), which every
schema that is loaded keeps (`LoadedSchema.distinctValues`), also when internal values are
replaced.
-/

namespace SdlTypes

open Sdl

/-! ## What is configured, and what the schema gives -/

/-- The value that is configured for a constant of an enum. -/
def Options.constant? (o : Options) (enumName name : String) : Option Constant :=
  Enums.constant? (Enums.configured o) enumName name

namespace Schema

/-- The internal value of an enum value, unless it has none. -/
def internalValue? (s : Schema) (enumName name : String) : Option Constant :=
  (s.find? enumName).bind fun t => if t.kind = .enum then (t.values.lookup name).join else none

/-- The values of each enum have different names. -/
def DistinctValues (s : Schema) : Prop :=
  ∀ t ∈ s.types, (t.values.map Prod.fst).Nodup

instance (s : Schema) : Decidable s.DistinctValues :=
  inferInstanceAs (Decidable (∀ _ ∈ _, _))

/-- An enum is looked up among the enums as among all types. -/
theorem find?_enums {s : Schema} {name : String} (h : isReserved name = false) :
    (s.enums.find? fun t => t.name == name) =
      (s.find? name).bind fun t => if t.kind = .enum then some t else none := by
  have hmem {t : NamedType} (ht : t ∈ s.types) (hname : t.name = name) :
      t ∈ s.enums ↔ t.kind = .enum := by
    rw [enums, List.mem_filter, and_iff_right ht, hname, h]
    simp
  cases hfind : s.find? name with
  | none =>
    have hnone := List.find?_eq_none.1 hfind
    exact List.find?_eq_none.2 fun t ht => hnone t (List.mem_filter.1 ht).1
  | some t =>
    obtain ⟨ht, hname⟩ := mem_of_find?_eq_some hfind
    have hsame : ∀ u ∈ s.enums, u.name = name → u = t := fun u hu hn =>
      List.inj_on_of_nodup_map s.nodup (List.mem_filter.1 hu).1 ht (hn.trans hname.symm)
    rw [Option.bind_some]
    split_ifs with hk
    · cases hu : s.enums.find? fun t => t.name == name with
      | none => exact absurd (beq_iff_eq.2 hname) (List.find?_eq_none.1 hu t ((hmem ht hname).2 hk))
      | some u =>
        have hn : u.name = name := by simpa using List.find?_some hu
        rw [hsame u (List.mem_of_find?_eq_some hu) hn]
    · refine List.find?_eq_none.2 fun u hu hn => hk ?_
      have heq := hsame u hu (by simpa using hn)
      exact (hmem ht hname).1 (heq ▸ hu)

/-! ### Schemas keep the names of values apart -/

variable {d : Document}

theorem keys_namedValues (definition : TypeDef) (extensions : List TypeDef) :
    (NamedType.namedValues definition extensions).map Prod.fst =
      (definition :: extensions).flatMap fun u => u.body.values.map EnumValueDef.name := by
  rw [NamedType.namedValues, List.map_flatMap]
  simp only [List.map_map]
  rfl

theorem values_builtIn (name : String) (kind : TypeKind) :
    (NamedType.builtIn name kind).values = [] := by
  cases kind <;> rfl

/-- The values of a definition and its extensions have different names in a valid document. -/
theorem nodup_values_typeOf (hv : d.Valid) {t : TypeDef} (ht : t ∈ d.types) :
    ((typeOf d t).values.map Prod.fst).Nodup := by
  unfold typeOf
  split
  · rw [values_builtIn]
    exact List.nodup_nil
  · rw [NamedType.ofDefinition, keys_namedValues]
    set definitions := t :: d.extensions.filter fun e => e.name = t.name with hdefinitions
    have hsub : definitions.Sublist (d.types ++ d.extensions) :=
      (List.singleton_sublist.2 ht).append List.filter_sublist
    have hname : ∀ u ∈ definitions, u.name = t.name :=
      List.forall_mem_cons.2 ⟨rfl, fun e he => of_decide_eq_true (List.mem_filter.1 he).2⟩
    have hnodup :
        (definitions.flatMap fun u => u.body.values.map fun v => (u.name, v.name)).Nodup :=
      hv.2.1.2.2.1.sublist (hsub.flatMap _)
    have hpairs : (definitions.flatMap fun u => u.body.values.map fun v => (u.name, v.name)) =
        (definitions.flatMap fun u => u.body.values.map EnumValueDef.name).map
          (Prod.mk t.name) := by
      rw [List.map_flatMap]
      refine List.flatMap_congr fun u hu => ?_
      rw [hname u hu, List.map_map]
      rfl
    rw [hpairs] at hnodup
    exact hnodup.of_map _

theorem distinctValues_ofDocument (hv : d.Valid) : (ofDocument d).DistinctValues := by
  intro t ht
  rcases mem_types_ofDocument ht with ⟨u, hu, rfl⟩ | ⟨name, kind, rfl, -⟩
  · exact nodup_values_typeOf hv hu
  · rw [values_builtIn]
    exact List.nodup_nil

/-- To replace an internal value changes no name. -/
theorem DistinctValues.setInternalValue {s : Schema} (h : s.DistinctValues)
    (enumName valueName : String) (value : Option Constant) :
    (s.setInternalValue enumName valueName value).DistinctValues := by
  intro t ht
  obtain ⟨u, hu, rfl⟩ := List.mem_map.1 ht
  split_ifs
  · have hkeys : (u.values.map fun p => if p.1 = valueName then (p.1, value) else p).map Prod.fst =
        u.values.map Prod.fst := by
      rw [List.map_map]
      refine List.map_congr_left fun p _ => ?_
      rw [Function.comp_apply]
      split_ifs <;> rfl
    rw [hkeys]
    exact h u hu
  · exact h u hu

end Schema

/-- The values of each enum of a loaded schema have different names. -/
theorem LoadedSchema.distinctValues {text : String} {l : LoadedSchema} (h : ofText text = .ok l) :
    l.schema.DistinctValues := by
  obtain ⟨heq, hv⟩ := eq_of_ofDocument (parse?_of_ofText h).2
  rw [heq]
  exact Schema.distinctValues_ofDocument hv

/-! ## Effective values -/

namespace Enums

/-- The value of a constant: what is configured for it, or else its internal value unless these are
ignored, or else its name. -/
def effective (s : Schema) (o : Options) (enumName name : String) : Constant :=
  (o.constant? enumName name).getD
    ((if o.ignoreEnumValuesFromSchema then none else s.internalValue? enumName name).getD
      (.text name))

variable {s : Schema} {o : Options} {convert : String → String} {enumName : String}

/-- To leave out an internal value that is just the name of its constant makes no difference. -/
theorem getD_lookup_internalValues {t : NamedType} (h : (t.values.map Prod.fst).Nodup)
    (name : String) :
    ((internalValues t).lookup name).getD (.text name) =
      (t.values.lookup name).join.getD (.text name) := by
  unfold internalValues
  generalize t.values = values at h
  induction values with
  | nil => rfl
  | cons p values ih =>
    obtain ⟨key, value?⟩ := p
    rw [List.map_cons, List.nodup_cons] at h
    have hrest := ih h.2
    rw [OrderedMap.lookup_cons_eq, List.filterMap_cons]
    by_cases hkey : name = key
    · subst hkey
      -- no value further on has the name
      have hnone : values.lookup name = none := by
        rw [List.lookup_eq_none_iff]
        exact fun p hp => bne_iff_ne.2 fun heq => h.1 (List.mem_map.2 ⟨p, hp, heq.symm⟩)
      rw [hnone] at hrest
      rw [if_pos rfl]
      cases value? with
      | none => exact hrest
      | some value =>
        dsimp only
        by_cases hv : value = .text name
        · rw [if_pos hv, hv]
          exact hrest
        · rw [if_neg hv]
          dsimp only
          rw [OrderedMap.lookup_cons_eq, if_pos rfl]
          rfl
    · rw [if_neg hkey]
      cases value? with
      | none => exact hrest
      | some value =>
        dsimp only
        by_cases hv : value = .text key
        · rw [if_pos hv]
          exact hrest
        · rw [if_neg hv]
          dsimp only
          rw [OrderedMap.lookup_cons_eq, if_neg hkey]
          exact hrest

/-- Of a constant that is not configured the table gives the internal value or the name. -/
theorem getD_internalValues_eq (hs : s.DistinctValues)
    (hr : Schema.isReserved enumName = false) (name : String) :
    (((s.enums.find? fun t => t.name == enumName).bind fun t =>
      (internalValues t).lookup name).getD (.text name)) =
      (s.internalValue? enumName name).getD (.text name) := by
  rw [Schema.find?_enums hr, Schema.internalValue?]
  cases hfind : s.find? enumName with
  | none => rfl
  | some t =>
    rw [Option.bind_some, Option.bind_some]
    split_ifs
    · exact getD_lookup_internalValues (hs t (Schema.mem_of_find?_eq_some hfind).1) name
    · rfl

/-- The pointers that a table is made of give the effective values. -/
theorem getD_constant?_pointersOf {pointers : OrderedMap EnumPointer}
    (h : pointersOf s o = .ok pointers) (hs : s.DistinctValues)
    (hr : Schema.isReserved enumName = false) (hopen : IsOpen (configured o) enumName)
    (name : String) :
    IsOpen pointers enumName ∧
      (constant? pointers enumName name).getD (.text name) = effective s o enumName name := by
  unfold pointersOf at h
  rw [effective]
  split_ifs at h ⊢ with hi
  · cases h
    exact ⟨hopen, rfl⟩
  · split at h
    · cases h
    · cases h
      obtain ⟨hopen', heq⟩ := constant?_withInternalValues s.nodup_names_enums hopen name
      refine ⟨hopen', ?_⟩
      rw [heq, Option.getD_or, getD_internalValues_eq hs hr]
      rfl

/-- An enum for which no text is configured is written with the effective values. -/
theorem constantValue_of_table {table : OrderedMap EnumSymbol}
    (h : Enums.table s o convert = .ok table)
    (heach : ∀ source, o.enumValues ≠ some (.module source)) (hs : s.DistinctValues)
    (hr : Schema.isReserved enumName = false) (hopen : IsOpen (configured o) enumName)
    (name : String) :
    (table.find? enumName).filter EnumSymbol.isExternal = none ∧
      Fold.constantValue (table.find? enumName) name = effective s o enumName name := by
  rw [table_of_each s convert heach] at h
  split_ifs at h
  obtain ⟨pointers, hp, rfl⟩ := exists_of_map h
  obtain ⟨hopen', heq⟩ := getD_constant?_pointersOf hp hs hr hopen name
  rw [← heq, constant?, Fold.constantValue, OrderedMap.find?_mapWithKey]
  cases hfind : pointers.find? enumName with
  | none => exact ⟨rfl, rfl⟩
  | some pointer =>
    cases pointer with
    | type text => exact absurd hfind (hopen' text)
    | constants values => exact ⟨rfl, rfl⟩

/-- The table is built unless a deprecation among the values that count is not sound. -/
theorem exists_table_iff (heach : ∀ source, o.enumValues ≠ some (.module source))
    (hknown : unknownNames s o = []) (convert : String → String) :
    (∃ table, Enums.table s o convert = .ok table) ↔
      o.ignoreEnumValuesFromSchema = true ∨ ∀ t ∈ s.enums, t.hasSoundValues = true := by
  rw [table_of_each s convert heach, hknown, if_neg (by simp), pointersOf]
  by_cases hi : o.ignoreEnumValuesFromSchema = true
  · rw [if_pos hi]
    exact ⟨fun _ => .inl hi, fun _ => ⟨_, rfl⟩⟩
  · rw [if_neg hi, or_iff_right hi]
    cases hfind : s.enums.find? fun t => !t.hasSoundValues with
    | none =>
      refine ⟨fun _ t ht => ?_, fun _ => ⟨_, rfl⟩⟩
      simpa using List.find?_eq_none.1 hfind t ht
    | some t =>
      have hbad : t.hasSoundValues = false := by simpa using List.find?_some hfind
      constructor
      · rintro ⟨table, htable⟩
        cases htable
      · intro hall
        rw [hall t (List.mem_of_find?_eq_some hfind)] at hbad
        cases hbad

/-- The pointers for a table as they are built in place, from maps that others may hold on to. The
maps of the configuration are left as they are, and no two enums share one of the new maps. -/
theorem read_build_of_configured {maps : List (OrderedMap Constant)}
    {configuration : OrderedMap EnumHandle}
    (hc : ∀ name address, (name, .map address) ∈ configuration.entries → address < maps.length)
    (ho : (configuration.mapWithKey fun _ handle => handle.read maps) = configured o) :
    let enums := if o.ignoreEnumValuesFromSchema then [] else s.enums
    (Workspace.build enums maps configuration).Apart maps ∧
      ∀ pointers, pointersOf s o = .ok pointers →
        (Workspace.build enums maps configuration).read = pointers := by
  intro enums
  obtain ⟨hapart, hread⟩ := Workspace.read_build hc enums
  refine ⟨hapart, fun pointers h => hread.trans ?_⟩
  rw [ho]
  unfold pointersOf at h
  by_cases hi : o.ignoreEnumValuesFromSchema = true
  · rw [if_pos hi] at h
    have henums : enums = [] := if_pos hi
    rw [henums]
    exact Except.ok.inj h
  · rw [if_neg hi] at h
    have henums : enums = s.enums := if_neg hi
    rw [henums]
    split at h
    · cases h
    · exact Except.ok.inj h

end Enums

/-! ## Enum declarations -/

namespace Block

/-- The name of a block as it stands behind the keyword. -/
def label (b : Block) : String :=
  if b.name = "" then "" else b.name ++ " "

/-- What stands between the equals sign of a type and what it is equal to. -/
def gap (b : Block) : String :=
  if Text.startsWith b.content "\n" then "" else " "

/-- A type is its name, an equals sign, and the body up to the semicolon. -/
theorem text_of_type {b : Block} (hkeyword : b.keyword = "type") :
    b.text = b.comment ++ (if b.exported then "export " else "") ++
      ("type " ++ b.label ++ "=" ++ b.gap ++ b.body ++ ";\n") := by
  have hword : "type " = "type" ++ " " := rfl
  have hequals : "= " = "=" ++ " " := rfl
  have hend : ";\n" = ";" ++ "\n" := rfl
  have hhead : b.head = (if b.exported then "export " else "") ++ ("type " ++ b.label) ++ "= " := by
    rw [head, hkeyword, if_neg (by decide : ¬"type" = ""), if_pos (rfl : "type" = "type"), label,
      hword]
    simp only [String.append_assoc]
  have hopen : closedByBrace b.keyword = false := by
    rw [hkeyword]
    decide
  rw [text, hopen, if_neg Bool.false_ne_true, hhead, gap, hend]
  by_cases hstarts : Text.startsWith b.content "\n" = true
  · have htrimmed : Comment.trimEnd "= " = "=" := rfl
    rw [if_pos hstarts, if_pos hstarts, trimEnd_append _ rfl (by decide), htrimmed]
    simp only [String.append_assoc, String.append_empty]
  · rw [if_neg hstarts, if_neg hstarts, hequals]
    simp only [String.append_assoc]

/-- A type whose content begins on the next line has no blank behind its equals sign. -/
theorem text_of_content {b : Block} {rows : String} (hkeyword : b.keyword = "type")
    (hcontent : b.content = "\n" ++ rows) (hinner : b.inner = "") :
    b.text = b.comment ++ (if b.exported then "export " else "") ++
      ("type " ++ b.label ++ "=\n" ++ rows ++ ";\n") := by
  have hstarts : Text.startsWith b.content "\n" := by
    rw [hcontent]
    exact Text.startsWith_append _ _
  have hne : b.content ≠ "" := by
    rw [hcontent]
    exact fun heq => absurd (String.append_eq_empty_iff.1 heq).1 (by decide)
  have hbody : b.body = "\n" ++ rows := by
    rw [body, if_neg (not_not.2 hinner), if_pos hne, hcontent]
  have hequals : "=\n" = "=" ++ "\n" := rfl
  rw [text_of_type hkeyword, gap, if_pos hstarts, hbody, hequals]
  simp only [String.append_assoc, String.append_empty]

/-- A declaration that a brace ends is its name and the body. -/
theorem text_of_braces {b : Block} (hne : b.keyword ≠ "") (htype : b.keyword ≠ "type")
    (hclosed : closedByBrace b.keyword = true) (hcontent : Text.startsWith b.content "\n" = false) :
    b.text = b.comment ++ (if b.exported then "export " else "") ++
      (b.keyword ++ " " ++ b.label ++ b.body ++ "\n") := by
  rw [text, hcontent, if_neg Bool.false_ne_true, hclosed, if_pos rfl, head, if_neg hne,
    if_neg htype, label]
  simp only [String.append_assoc, String.empty_append]

/-- An enum is its lines between braces, or empty braces. -/
theorem text_of_lines {b : Block} (hkeyword : b.keyword = "enum") (hcontent : b.content = "") :
    b.text = b.comment ++ (if b.exported then "export " else "") ++
      ("enum " ++ b.label ++
        if b.inner = "" then "\x7b\x7d\n" else "\x7b\n" ++ b.inner ++ "\n\x7d\n") := by
  have hstarts : Text.startsWith b.content "\n" = false := by
    rw [hcontent]
    decide
  have hempty : "\x7b\x7d\n" = "\x7b\x7d" ++ "\n" := rfl
  have hend : "\n\x7d\n" = "\n\x7d" ++ "\n" := rfl
  have hword : "enum " = "enum" ++ " " := rfl
  have hnamed : b.keyword ≠ "" := by
    rw [hkeyword]
    decide
  rw [text_of_braces hnamed (by rw [hkeyword]; decide) (by rw [hkeyword]; decide) hstarts, hkeyword,
    hempty, hend, hword]
  by_cases hinner : b.inner = ""
  · rw [if_pos hinner, body, if_neg (not_not.2 hinner), if_neg (not_not.2 hcontent),
      if_pos hnamed]
    simp only [String.append_assoc]
  · rw [if_neg hinner, body, if_pos hinner, hcontent]
    simp only [String.append_assoc, String.empty_append]

end Block

namespace FoldContext

/-- The entry for an enum value: its comment, its converted name and its effective value. -/
def effectiveEnumerator (c : FoldContext) (enumName : String) (v : EnumValueDef) : Enumerator where
  comment := Comment.ofMember 1 v.description v.directives
  name := c.resolver.convertName v.name false false
  value := Enums.effective c.schema c.options enumName v.name

/-- The declaration of an enum with some entries, as a union of their values or as an enum. -/
def entriesDeclaration (c : FoldContext) (d : TypeDef) (entries : List Enumerator) : Declaration :=
  if c.options.enumsAsTypes then
    Fold.declaration c d .type (c.resolver.enumName d.name) (.literals entries)
  else Fold.declaration c d .enum (c.resolver.enumName d.name) (.enumerators entries)

/-- The declaration of an enum with some entries as it is written: line by line or, as a union, arm
by arm. -/
def entriesText (c : FoldContext) (d : TypeDef) (entries : List Enumerator) : String :=
  let name := c.resolver.enumName d.name
  let label := if name = "" then "" else name ++ " "
  let lines := Text.join "\n" (entries.map Enumerator.line)
  Comment.render 0 (d.description.getD "") ++ (if c.options.noExport then "" else "export ") ++
    if c.options.enumsAsTypes then
      "type " ++ label ++ "=\n" ++ Text.join "\n" (entries.map Enumerator.arm) ++ ";\n"
    else
      "enum " ++ label ++ if lines = "" then "\x7b\x7d\n" else "\x7b\n" ++ lines ++ "\n\x7d\n"

theorem text_entriesDeclaration (c : FoldContext) (d : TypeDef) (entries : List Enumerator) :
    (c.entriesDeclaration d entries).text = c.entriesText d entries := by
  have hexport : (if (!c.options.noExport) = true then "export " else "") =
      if c.options.noExport = true then "" else "export " := by
    cases c.options.noExport <;> rfl
  unfold entriesDeclaration entriesText
  dsimp only
  rw [← hexport]
  by_cases hasType : c.options.enumsAsTypes = true
  · rw [if_pos hasType, if_pos hasType, Declaration.text, Block.text_of_content rfl rfl rfl]
    rfl
  · rw [if_neg hasType, if_neg hasType, Declaration.text, Block.text_of_lines rfl rfl]
    rfl

end FoldContext

namespace Enums

variable {s : Schema} {o : Options}

/-- The enum `Color` of a palette. -/
def color : TypeDef :=
  ⟨none, "Color", [], .enum [⟨none, "RED", []⟩, ⟨none, "GREEN", []⟩, ⟨none, "BLUE", []⟩]⟩

/-- A schema that gives `RED` and `GREEN` internal values, and to `BLUE` none. -/
def palette : Schema where
  types := [{ NamedType.ofDefinition .document color [] with
    values := [("RED", some (.int 0)), ("GREEN", some (.bool false)), ("BLUE", none)] }]
  directives := []
  nodup := by decide

/-- The map that gives `GREEN` the empty text. -/
def greens : OrderedMap Constant :=
  .ofList [("GREEN", .text "")]

/-- The options that configure `Color` by that map. -/
def paletteOptions : Options where
  enumValues := some (.each (.ofList [("Color", .constants greens)]))

end Enums

end SdlTypes
