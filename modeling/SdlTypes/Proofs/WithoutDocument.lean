import SdlTypes.Proofs.Extensions

/-!
# Runs without a document

A run that is given no document folds an arrangement of the types of its schema. The schema of a
document has these types from the document: those that it defines come first and in its order, and
what is built in behind them is not arranged (`Schema.types_ofDocument`). So both arrangements have
the same types in the same order (`LoadedSchema.definitions_arrange_none`). The directive and schema
definitions that only the document has give no statements, and a run gives the same with the
document and without.
-/

namespace SdlTypes

open Sdl

/-- Whether a definition is that of a type. -/
def Sdl.Definition.isType (x : Definition) : Bool :=
  x.typeDef?.isSome

namespace Schema

/-- Of types with different names the first of each name are these types themselves, whatever
follows. -/
theorem firstOfEach_append {ts : List NamedType} (h : (ts.map NamedType.name).Nodup)
    (us : List NamedType) :
    ∃ rest, firstOfEach (ts ++ us) = ts ++ rest ∧ ∀ u ∈ rest, u ∈ us := by
  induction ts with
  | nil => exact ⟨_, rfl, fun u hu => mem_of_mem_firstOfEach hu⟩
  | cons t ts ih =>
    rw [List.map_cons, List.nodup_cons] at h
    obtain ⟨rest, hrest, hmem⟩ := ih h.2
    refine ⟨rest.filter fun u => u.name ≠ t.name, ?_, fun u hu => hmem u (List.mem_filter.1 hu).1⟩
    rw [List.cons_append, firstOfEach, hrest, List.filter_append]
    have hself : (ts.filter fun u => u.name ≠ t.name) = ts := by
      refine List.filter_eq_self.2 fun u hu => ?_
      have hne : u.name ≠ t.name := fun heq => h.1 (heq ▸ List.mem_map_of_mem hu)
      simpa using hne
    rw [hself]
    rfl

variable {d : Document}

/-- The types of the schema of a document: those that it defines, and built-in ones behind them. -/
theorem types_ofDocument (h : (d.types.map TypeDef.name).Nodup) :
    ∃ rest, (ofDocument d).types = d.types.map (typeOf d) ++ rest ∧
      ∀ t ∈ rest, ∃ name kind, t = .builtIn name kind ∧ BuiltIn.kind? name = some kind := by
  have hnodup : ((d.types.map (typeOf d)).map NamedType.name).Nodup := by
    rw [List.map_map]
    simpa only [Function.comp_def, name_typeOf] using h
  obtain ⟨rest, hrest, hmem⟩ := firstOfEach_append hnodup (builtInTypes d)
  exact ⟨rest, hrest, fun t ht => exists_of_mem_builtInTypes (hmem t ht)⟩

end Schema

namespace LoadedSchema

variable {d : Document} {l : LoadedSchema}

/-- Without a document the types of a loaded schema are arranged as its document defines them. -/
theorem definitions_arrange_none (h : ofDocument d = .ok l)
    (hnames : ∀ t ∈ d.types, t.name ∉ BuiltIn.scalars ∧ Schema.isReserved t.name = false) :
    (l.schema.arrange none).definitions = l.arranged.definitions.filter Definition.isType := by
  have hnodup := (eq_of_ofDocument h).2.2.1.2.1
  have hbuiltIn : ∀ t ∈ d.types, BuiltIn.kind? t.name = none := fun t ht =>
    BuiltIn.kind?_eq_none (hnames t ht).1 (hnames t ht).2
  have hschema : l.schema = Schema.ofDocument d := by rw [(eq_of_ofDocument h).1]
  have hnone : (l.schema.arrange none).definitions =
      d.types.map fun t => .type (Schema.typeOf d t).merged := by
    obtain ⟨rest, htypes, hrest⟩ := Schema.types_ofDocument hnodup
    change Schema.arrangeTypes [] l.schema.types = _
    rw [Schema.arrangeTypes_eq_filter _ _ l.schema.nodup, hschema, htypes, List.filter_append,
      List.filter_eq_self.2, List.filter_eq_nil_iff.2, List.append_nil, List.map_map]
    · rfl
    · intro t ht
      obtain ⟨name, kind, rfl, hkind⟩ := hrest t ht
      have hname : (NamedType.builtIn name kind).name = name := rfl
      rcases BuiltIn.mem_scalars_or_isReserved hkind with hs | hr
      · simp [hname, hs]
      · simp [hname, hr]
    · intro u hu
      obtain ⟨t, ht, rfl⟩ := List.mem_map.1 hu
      simp [Schema.name_typeOf, hnames t ht]
  rw [hnone, definitions_arranged h, List.filter_filterMap, Document.types, List.map_filterMap]
  refine List.filterMap_congr fun x hx => ?_
  cases x with
  | type t =>
    have ht : t ∈ d.types := List.mem_filterMap.2 ⟨_, hx, rfl⟩
    have hmerged : (Schema.typeOf d t).merged = t.merge (Schema.typeOf d t).extensions := by
      rw [Schema.typeOf_of_not_builtIn d (hbuiltIn t ht)]
      rfl
    rw [Schema.completed?, Schema.find?_ofDocument hnodup ht, Option.map_some, ← hmerged]
    rfl
  | _ => rfl

end LoadedSchema

/-! ## Two runs -/

namespace Module

/-- The statements of the definitions that have some. -/
def written (m : Module) : List (List Statement) :=
  m.definitions.filter fun statements => !statements.isEmpty

/-- Two modules that declare the same. -/
structure SameDeclarations (m m' : Module) : Prop where
  preamble : m'.preamble = m.preamble
  scalars : m'.scalars = m.scalars
  directives : m'.directives = m.directives
  written : m'.written = m.written
  further : m'.further = m.further

/-- Where two documents have the same definitions of types in the same order, a run gives the same
for both. -/
theorem alike_generate_of_types {s : Schema} {d d' : Document}
    (h : d'.definitions = d.definitions.filter Definition.isType) (o : Options)
    (convert : Option (String → String)) (further : List String) :
    Alike SameDeclarations (generate s o (some d) convert further)
      (generate s o (some d') convert further) := by
  rw [generate_eq, generate_eq]
  refine .of_bind fun f _ => .of_bind fun symbols _ => ?_
  have hsame : (d.definitions.mapM (FoldContext.ofTables s o symbols f).result).map
        (List.filter fun statements => !statements.isEmpty) =
      (d'.definitions.mapM (FoldContext.ofTables s o symbols f).result).map
        (List.filter fun statements => !statements.isEmpty) := by
    rw [h]
    refine (mapM_filter (fun _ _ _ => rfl) fun x _ hx => ⟨[], ?_, rfl⟩).symm
    cases x with
    | type t => cases hx
    | _ => rfl
  refine ((Alike.of_map_eq hsame).mapError _).bind fun definitions definitions' hwritten => .ok ?_
  exact ⟨rfl, rfl, rfl, hwritten.symm, rfl⟩

/-- With its document and without a loaded schema has the same types, and a run writes the same for
them or fails with the same error, if the document defines no built-in types. -/
theorem alike_generate_withoutDocument {d : Document} {l : LoadedSchema}
    (h : LoadedSchema.ofDocument d = .ok l)
    (hnames : ∀ t ∈ d.types, t.name ∉ BuiltIn.scalars ∧ Schema.isReserved t.name = false) :
    (l.schema.arrange none).types = l.arranged.types ∧
    ∀ o convert further, Alike SameDeclarations
      (generate l.schema o (some l.arranged) convert further)
      (generate l.schema o none convert further) := by
  have hdefinitions := LoadedSchema.definitions_arrange_none h hnames
  constructor
  · rw [Document.types, hdefinitions, List.filterMap_filter]
    refine List.filterMap_congr fun x _ => ?_
    cases x <;> rfl
  · intro o convert further
    exact alike_generate_of_types hdefinitions o convert further

/-- A document with an extension in front of its type, and with a directive. -/
def extendedQuery : String :=
  "extend type Q \x7b b: E \x7d directive @x on OBJECT " ++
    "type Q \x7b a: Int \x7d enum E \x7b A \x7d"

/-- The extension is merged on both ways, and the directive gives no statements. -/
theorem alike_generate_withoutDocument_extended :
    ∃ l m m', LoadedSchema.ofText extendedQuery = .ok l ∧
      (l.schema.arrange none).types = l.arranged.types ∧
      generate l.schema {} (some l.arranged) none [] = .ok m ∧
      generate l.schema {} none none [] = .ok m' ∧ SameDeclarations m m' ∧
      m.written.length = 2 := by
  have hloads : (LoadedSchema.ofText extendedQuery).toOption.any fun l =>
      (generate l.schema {} (some l.arranged) none []).toOption.any fun m =>
        decide (m.written.length = 2 ∧ ∀ t ∈ l.document.types,
          t.name ∉ BuiltIn.scalars ∧ Schema.isReserved t.name = false) := by
    decide +kernel
  simp only [Option.any_eq_true, decide_eq_true_eq] at hloads
  obtain ⟨l, hl, m, hm, hlength, hnames⟩ := hloads
  obtain ⟨htypes, hruns⟩ := alike_generate_withoutDocument
    (LoadedSchema.parse?_of_ofText (eq_ok_of_toOption hl)).2 hnames
  have hrun := hruns {} none []
  rw [eq_ok_of_toOption hm] at hrun
  obtain ⟨m', hm', hsame⟩ := hrun.exists_of_ok
  exact ⟨l, m, m', eq_ok_of_toOption hl, htypes, eq_ok_of_toOption hm, hm', hsame, hlength⟩

end Module

end SdlTypes
