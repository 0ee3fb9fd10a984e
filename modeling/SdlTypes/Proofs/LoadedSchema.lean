import SdlTypes.Proofs.Arrangement

/-!
# Loaded schemas

A loaded schema is that of a valid document: it has a type for each definition
(`Schema.find?_ofDocument`), and every type that it has besides is built in
(`Schema.mem_types_ofDocument`). So its arrangement comes from the document alone: it is the
document without extensions and operations, each definition completed by what its extensions add
(`LoadedSchema.definitions_arranged`).
-/

namespace SdlTypes

open Sdl

/-! ## Types by name -/

namespace Sdl.BuiltIn

/-- A built-in type is a scalar or kept for introspection. -/
theorem mem_scalars_or_isReserved {name : String} {kind : TypeKind} (h : kind? name = some kind) :
    name ∈ scalars ∨ Schema.isReserved name = true := by
  unfold kind? at h
  split_ifs at h with hs
  · exact .inl hs
  · have hreserved : ∀ p ∈ introspectionTypes, Schema.isReserved p.1 = true := by decide
    obtain ⟨l₁, l₂, heq, -⟩ := List.lookup_eq_some_iff.1 h
    exact .inr (hreserved (name, kind) (heq ▸ by simp))

theorem kind?_eq_some_scalar {name : String} (h : name ∈ scalars) : kind? name = some .scalar :=
  if_pos h

/-- What is neither a scalar nor kept for introspection is not built in. -/
theorem kind?_eq_none {name : String} (hs : name ∉ scalars)
    (hr : Schema.isReserved name = false) : kind? name = none := by
  cases h : kind? name with
  | none => rfl
  | some kind =>
    rcases mem_scalars_or_isReserved h with h | h
    · exact absurd h hs
    · rw [hr] at h
      cases h

end Sdl.BuiltIn

namespace Schema

/-- Of each name the first type is found. -/
theorem find?_firstOfEach (ts : List NamedType) (name : String) :
    (firstOfEach ts).find? (fun t => t.name == name) = ts.find? fun t => t.name == name := by
  induction ts with
  | nil => rfl
  | cons t rest ih =>
    rw [firstOfEach, List.find?_cons, List.find?_cons]
    cases hn : t.name == name with
    | true => rfl
    | false =>
      dsimp only
      rw [List.find?_filter, ← ih]
      congr 1
      funext u
      have hne : t.name ≠ name := by simpa using hn
      by_cases hu : u.name = name
      · simp [hu, hne.symm]
      · simp [hu]

theorem mem_of_mem_firstOfEach {ts : List NamedType} {t : NamedType} (h : t ∈ firstOfEach ts) :
    t ∈ ts := by
  induction ts with
  | nil => exact h
  | cons u rest ih =>
    rw [firstOfEach, List.mem_cons] at h
    rcases h with rfl | h
    · exact List.mem_cons_self
    · exact List.mem_cons_of_mem _ (ih (List.mem_filter.1 h).1)

theorem mem_of_find?_eq_some {s : Schema} {name : String} {t : NamedType}
    (h : s.find? name = some t) : t ∈ s.types ∧ t.name = name :=
  ⟨List.mem_of_find?_eq_some h, by simpa using List.find?_some h⟩

theorem find?_of_mem {s : Schema} {t : NamedType} (h : t ∈ s.types) : s.find? t.name = some t := by
  cases hfind : s.find? t.name with
  | none => exact absurd (beq_self_eq_true t.name) (List.find?_eq_none.1 hfind t h)
  | some u =>
    obtain ⟨hu, hname⟩ := mem_of_find?_eq_some hfind
    rw [List.inj_on_of_nodup_map s.nodup hu h hname]

/-! ## The schema of a document -/

variable {d : Document}

theorem name_typeOf (d : Document) (t : TypeDef) : (typeOf d t).name = t.name := by
  unfold typeOf
  split <;> rfl

/-- A document's definition of a name gives the type of that name. -/
theorem find?_ofDocument (h : (d.types.map TypeDef.name).Nodup) {t : TypeDef} (ht : t ∈ d.types) :
    (ofDocument d).find? t.name = some (typeOf d t) := by
  change (firstOfEach _).find? _ = _
  rw [find?_firstOfEach, List.find?_append]
  have hsome : (d.types.map (typeOf d)).find? (fun u => u.name == t.name) = some (typeOf d t) := by
    rw [List.find?_map]
    cases hf : d.types.find? ((fun u => u.name == t.name) ∘ typeOf d) with
    | none =>
      have := List.find?_eq_none.1 hf t ht
      simp [name_typeOf] at this
    | some u =>
      have hu := List.mem_of_find?_eq_some hf
      have hn : u.name = t.name := by simpa [name_typeOf] using List.find?_some hf
      rw [List.inj_on_of_nodup_map h hu ht hn]
      rfl
  rw [hsome, Option.some_or]

theorem exists_of_mem_builtInTypes {t : NamedType} (h : t ∈ builtInTypes d) :
    ∃ name kind, t = .builtIn name kind ∧ BuiltIn.kind? name = some kind := by
  rcases List.mem_append.1 h with h | h
  · obtain ⟨name, hn, rfl⟩ := List.mem_map.1 h
    exact ⟨name, .scalar, rfl, BuiltIn.kind?_eq_some_scalar (List.mem_filter.1 hn).1⟩
  · obtain ⟨⟨name, kind⟩, hp, rfl⟩ := List.mem_map.1 h
    have hkind : ∀ p ∈ BuiltIn.introspectionTypes, BuiltIn.kind? p.1 = some p.2 := by decide
    exact ⟨name, kind, rfl, hkind _ hp⟩

/-- A type of a document's schema is that of a definition, or built in. -/
theorem mem_types_ofDocument {t : NamedType} (h : t ∈ (ofDocument d).types) :
    (∃ definition ∈ d.types, t = typeOf d definition) ∨
      ∃ name kind, t = .builtIn name kind ∧ BuiltIn.kind? name = some kind := by
  rcases List.mem_append.1 (mem_of_mem_firstOfEach h) with h | h
  · obtain ⟨definition, hd, rfl⟩ := List.mem_map.1 h
    exact .inl ⟨definition, hd, rfl⟩
  · exact .inr (exists_of_mem_builtInTypes h)

/-! ## Completed definitions -/

/-- A definition as an arrangement shows it, if it does: a type with what its extensions in the
schema add, directive and schema definitions as they are. -/
def completed? (s : Schema) : Definition → Option Definition
  | .type d => (s.find? d.name).map fun t => .type (d.merge t.extensions)
  | .directive d => some (.directive d)
  | .schema d => some (.schema d)
  | _ => none

/-- Where no name is defined twice or seen before, the walk through a document completes the
definitions one by one. -/
theorem arrangeDefinitions_eq_filterMap (s : Schema) (seen : List String) (ds : List Definition)
    (h : (typeNamesOf ds).Nodup) (hseen : ∀ name ∈ typeNamesOf ds, name ∉ seen) :
    (s.arrangeDefinitions seen ds).1 = ds.filterMap s.completed? := by
  induction ds generalizing seen with
  | nil => rfl
  | cons d rest ih =>
    cases d with
    | type d =>
      have hnames : typeNamesOf (.type d :: rest) = d.name :: typeNamesOf rest := rfl
      rw [hnames, List.nodup_cons] at h
      rw [hnames, List.forall_mem_cons] at hseen
      cases hfind : s.find? d.name with
      | none =>
        simp only [arrangeDefinitions, hfind, List.filterMap_cons, completed?, Option.map_none]
        exact ih seen h.2 hseen.2
      | some t =>
        simp only [arrangeDefinitions, hfind, if_neg hseen.1, List.filterMap_cons, completed?,
          Option.map_some]
        congr 1
        refine ih _ h.2 fun name hname hmem => ?_
        rcases List.mem_cons.1 hmem with rfl | hmem
        · exact h.1 hname
        · exact hseen.2 name hname hmem
    | directive d => exact congrArg (Definition.directive d :: ·) (ih seen h hseen)
    | schema d => exact congrArg (Definition.schema d :: ·) (ih seen h hseen)
    | _ => exact ih seen h hseen

end Schema

namespace LoadedSchema

variable {d : Document} {l : LoadedSchema}

/-- What loading gives is the schema of the document, which is valid. -/
theorem eq_of_ofDocument (h : ofDocument d = .ok l) : l = ⟨Schema.ofDocument d, d⟩ ∧ d.Valid := by
  unfold ofDocument at h
  dsimp only at h
  split_ifs at h with hv
  exact ⟨(Except.ok.inj h).symm, hv⟩

/-- A text that loads is that of the loaded document. -/
theorem parse?_of_ofText {text : String} (h : ofText text = .ok l) :
    Document.parse? text = some l.document ∧ ofDocument l.document = .ok l := by
  unfold ofText at h
  split at h
  · next d hd =>
    obtain ⟨rfl, -⟩ := eq_of_ofDocument h
    exact ⟨hd, h⟩
  · cases h

/-- The arrangement of a loaded schema is its document, completed definition by definition. -/
theorem definitions_arranged (h : ofDocument d = .ok l) :
    l.arranged.definitions = d.definitions.filterMap (Schema.ofDocument d).completed? := by
  obtain ⟨rfl, hv⟩ := eq_of_ofDocument h
  have hnodup : (d.types.map TypeDef.name).Nodup := hv.2.1.2.1
  have hrest : Schema.arrangeTypes
      ((Schema.ofDocument d).arrangeDefinitions [] d.definitions).2 (Schema.ofDocument d).types =
        [] := by
    rw [Schema.arrangeTypes_eq_filter _ _ (Schema.ofDocument d).nodup, List.map_eq_nil_iff,
      List.filter_eq_nil_iff]
    intro t ht hnew
    obtain ⟨hseen, hr, hs⟩ := of_decide_eq_true hnew
    rcases Schema.mem_types_ofDocument ht with ⟨u, hu, rfl⟩ | ⟨name, kind, rfl, hk⟩
    · rw [Schema.mem_seen_arrangeDefinitions, Schema.name_typeOf] at hseen
      refine hseen (.inr ⟨List.mem_map_of_mem hu, ?_⟩)
      rw [Schema.knows, Schema.find?_ofDocument hnodup hu]
      rfl
    · rcases BuiltIn.mem_scalars_or_isReserved hk with h | h
      · exact hs h
      · exact hr h
  change ((Schema.ofDocument d).arrange (some d)).definitions = _
  rw [Schema.definitions_arrange]
  change ((Schema.ofDocument d).arrangeDefinitions [] d.definitions).1 ++
    Schema.arrangeTypes ((Schema.ofDocument d).arrangeDefinitions [] d.definitions).2
      (Schema.ofDocument d).types = _
  rw [hrest, List.append_nil]
  exact Schema.arrangeDefinitions_eq_filterMap _ _ _ hnodup fun _ _ => List.not_mem_nil

end LoadedSchema

end SdlTypes
