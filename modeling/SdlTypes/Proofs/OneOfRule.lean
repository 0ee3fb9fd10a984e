import SdlTypes.Proofs.Extensions

/-!
# The rule for oneOf input objects

An input object of which exactly one field is set has no field that may not be null. A definition
breaks this rule (`Definition.violation?`) if it is that of a flagged input object and some member
of it is required; the first such definition of a document and its first such member are the
violation of the document (`Document.firstViolation?`).

The fold asks twice which input objects are flagged: for every field it looks at the type alone
(`Schema.flagsType`), and when it makes the arms of the union at the type and the merged definition
(`Schema.flags`). Under `onlyEnums` no arms are made, so the fold of a loaded document fails with
the violation among the types that are flagged on their own, and under all other options with the
violation among all (`FoldContext.failure?_document`). The two differ for an input object that only
an extension marks.
-/

namespace SdlTypes

open Sdl

/-! ## Violations -/

/-- The first member of a definition that may not be null. -/
def Sdl.TypeDef.firstRequired? (d : TypeDef) : Option Member :=
  d.body.members.find? fun m => m.asField.type.required

/-- How a definition breaks the rule, if `flagged` tells which input objects it is for. -/
def Sdl.Definition.violation? (flagged : TypeDef → Bool) : Definition → Option ConstructionError
  | .type d =>
    if d.kind = .input ∧ flagged d then d.firstRequired?.map fun m => ⟨d.name, m.name⟩ else none
  | _ => none

/-- How the first definition of a document that breaks the rule does so. -/
def Sdl.Document.firstViolation? (flagged : TypeDef → Bool) (d : Document) :
    Option ConstructionError :=
  d.definitions.findSome? (Definition.violation? flagged)

namespace Schema

/-- Whether the type of a definition or the definition itself is flagged. -/
def flags (s : Schema) (d : TypeDef) : Bool :=
  isOneOf (s.find? d.name) d.directives

/-- Whether the type of a definition is flagged on its own. -/
def flagsType (s : Schema) (d : TypeDef) : Bool :=
  isOneOf (s.find? d.name) []

/-- A type that is flagged on its own is flagged in any case. -/
theorem flags_of_flagsType {s : Schema} {d : TypeDef} (h : s.flagsType d = true) :
    s.flags d = true := by
  unfold flags
  unfold flagsType at h
  cases hfind : s.find? d.name with
  | none =>
    rw [hfind] at h
    cases h
  | some t =>
    rw [hfind] at h
    simp only [isOneOf, marksOneOf, List.any_nil, Bool.or_false, Bool.and_eq_true] at h
    simp only [isOneOf, h.1, Bool.true_and, Bool.or_eq_true]
    exact .inl h.2

end Schema

/-! ## The fold of a definition -/

namespace FoldContext

variable (c : FoldContext)

/-- Which input objects the fold takes for flagged. -/
def flags : TypeDef → Bool :=
  if c.options.onlyEnums then c.schema.flagsType else c.schema.flags

/-- The check of the fields of an input object fails at the first one that is required. -/
theorem failure?_checkNullable (typeName : String) (vs : List InputValueDef) :
    failure? ((vs.map (c.inputProperty true)).forM (OneOf.checkNullable typeName)) =
      ((vs.map Member.input).find? fun m => m.asField.type.required).map fun m =>
        ⟨typeName, m.name⟩ := by
  rw [forM_checkNullable, List.find?_map]
  change _ = ((vs.find? fun v => v.type.required).map Member.input).map _
  cases vs.find? fun v => v.type.required <;> rfl

/-- The statements of an input object are made unless it is flagged and breaks the rule. -/
theorem failure?_inputStatements (d : TypeDef) (ps : List Property) :
    failure? (c.inputStatements d ps) =
      if c.options.onlyEnums = false ∧ c.schema.flags d then
        (failure? (ps.forM (OneOf.checkNullable d.name))).map .construction
      else none := by
  unfold inputStatements inputBody Schema.flags
  cases c.options.onlyEnums with
  | true => rfl
  | false =>
    cases Schema.isOneOf (c.schema.find? d.name) d.directives with
    | false => rfl
    | true =>
      simp only [Bool.false_eq_true, if_false, if_true, true_and, failure?_map,
        failure?_mapError]
      rw [OneOf.arms]
      cases ps.forM (OneOf.checkNullable d.name) <;> rfl

theorem flags_eq (d : TypeDef) :
    c.flags d = if c.options.onlyEnums then c.schema.flagsType d else c.schema.flags d := by
  unfold flags
  split_ifs <;> rfl

/-- An input object with input fields fails as it breaks the rule. -/
theorem failure?_typeResult_of_inputs {d : TypeDef} {vs : List InputValueDef}
    (hk : d.kind = .input) (hvs : d.body.members = vs.map Member.input) :
    failure? (c.typeResult d) =
      ((Definition.type d).violation? c.flags).map .construction := by
  have hviolation : (Definition.type d).violation? c.flags =
      if c.flags d then
        failure? ((vs.map (c.inputProperty true)).forM (OneOf.checkNullable d.name))
      else none := by
    simp only [Definition.violation?, hk, true_and, TypeDef.firstRequired?, hvs,
      failure?_checkNullable]
  have hmake := c.failure?_inputStatements d (vs.map (c.inputProperty true))
  rw [typeResult_of_inputs c hk hvs, hviolation, flags_eq, failure?_bind, hmake]
  generalize (vs.map (c.inputProperty true)) = ps
  cases htype : c.schema.flagsType d with
  | true =>
    -- Every field is checked while it is folded, whatever the options say.
    rw [c.verdict_of_isOneOf htype, forM_mapError, Schema.flags_of_flagsType htype, ite_self,
      if_pos rfl]
    cases ps.forM (OneOf.checkNullable d.name) with
    | error e => rfl
    | ok => exact ite_self none
  | false =>
    -- No field is checked before the arms are made, and under `onlyEnums` none are made.
    rw [c.verdict_of_not_isOneOf htype, forM_ok]
    cases c.options.onlyEnums with
    | true => rfl
    | false => cases c.schema.flags d <;> rfl

/-- A well-formed type definition fails as it breaks the rule. -/
theorem failure?_typeResult {d : TypeDef} (hd : d.WellFormed) :
    failure? (c.typeResult d) = ((Definition.type d).violation? c.flags).map .construction := by
  have hbody := hd.body
  have hnone (hk : d.kind ≠ .input) : (Definition.type d).violation? c.flags = none := by
    rw [Definition.violation?, if_neg fun h => hk h.1]
  cases hk : d.kind with
  | input =>
    obtain ⟨vs, hvs⟩ := (hd.areInputs hk).exists_eq_map
    exact c.failure?_typeResult_of_inputs hk hvs
  | object | interface =>
    obtain ⟨fs, hfs⟩ := (hd.areFields (by simp [hk])).exists_eq_map
    rw [hnone (by simp [hk]), typeResult, hk]
    dsimp only
    rw [hfs, mapM_fieldResult]
    rfl
  | _ =>
    rw [hnone (by simp [hk]), typeResult, hk]
    rfl

/-- A run fails with the first violation of its document, if all types in it are well-formed. -/
theorem failure?_document {d : Document} (hd : ∀ t, .type t ∈ d.definitions → t.WellFormed) :
    failure? (Fold.outcome (Fold.document c d) {}) =
      (d.firstViolation? c.flags).map .construction := by
  have hresult : ∀ x ∈ d.definitions,
      failure? (c.result x) = (x.violation? c.flags).map .construction := by
    intro x hx
    cases x with
    | type t => exact c.failure?_typeResult (hd t hx)
    | _ => rfl
  rw [Fold.outcome_document, failure?_mapM, Document.firstViolation?, List.map_findSome?]
  exact findSome?_congr_of_mem hresult

/-- The rule is enforced if a run fails with the first violation among all flagged input objects,
and with nothing else. -/
def EnforcesOneOf (d : Document) : Prop :=
  failure? (Fold.outcome (Fold.document c d) {}) =
    (d.firstViolation? c.schema.flags).map .construction

end FoldContext

/-! ## Loaded documents -/

theorem Sdl.Document.WellFormed.concat {ds : List Document} (h : ∀ d ∈ ds, d.WellFormed) :
    (Document.concat ds).WellFormed := by
  constructor
  · intro t ht
    obtain ⟨x, hx, htype⟩ := List.mem_filterMap.1 ht
    obtain ⟨d, hd, hx⟩ := List.mem_flatMap.1 hx
    exact (h d hd).types t (List.mem_filterMap.2 ⟨x, hx, htype⟩)
  · intro e he
    obtain ⟨x, hx, hext⟩ := List.mem_filterMap.1 he
    obtain ⟨d, hd, hx⟩ := List.mem_flatMap.1 hx
    exact (h d hd).extensions e (List.mem_filterMap.2 ⟨x, hx, hext⟩)

/-- In the arrangement of a well-formed document all types are well-formed. -/
theorem LoadedSchema.wellFormed_of_mem_arranged {d : Document} {l : LoadedSchema}
    (h : ofDocument d = .ok l) (hd : d.WellFormed) {m : TypeDef}
    (hm : .type m ∈ l.arranged.definitions) : m.WellFormed := by
  obtain ⟨t, ht, rfl⟩ := (mem_arranged_iff h).1 hm
  refine (hd.types t ht).absorb (fun e he => ?_) fun e he => ?_
  · exact hd.extensions e (List.mem_filter.1 (Schema.mem_extensionsOf_of_mem_typeOf he)).1
  · exact Document.kind_of_mem_extensionsOf (eq_of_ofDocument h).2 ht e
      (Schema.mem_extensionsOf_of_mem_typeOf he)

/-- The fold of a loaded document, which may come from several texts, fails with the first
violation among the input objects that it takes for flagged: all that are, or under `onlyEnums`
those whose types are on their own. So it enforces the rule unless `onlyEnums` is on and the
violation is another among the types that are flagged on their own, or there is none. -/
theorem FoldContext.enforcesOneOf_iff {ds : List Document} {l : LoadedSchema}
    (hparse : ∀ d ∈ ds, ∃ text, Document.parse? text = some d)
    (hl : LoadedSchema.ofDocument (.concat ds) = .ok l) (o : Options) (symbols : SymbolTables)
    (convert : String → String) :
    (failure? (Fold.outcome (Fold.document (.ofTables l.schema o symbols convert) l.arranged) {}) =
      (l.arranged.firstViolation?
        (if o.onlyEnums then l.schema.flagsType else l.schema.flags)).map .construction) ∧
    ((FoldContext.ofTables l.schema o symbols convert).EnforcesOneOf l.arranged ↔
      (o.onlyEnums = true → l.arranged.firstViolation? l.schema.flagsType =
        l.arranged.firstViolation? l.schema.flags)) := by
  have hd : (Document.concat ds).WellFormed := .concat fun d hmem => by
    obtain ⟨text, htext⟩ := hparse d hmem
    exact Document.wellFormed_of_parse? htext
  have hfails := (FoldContext.ofTables l.schema o symbols convert).failure?_document
    fun t ht => LoadedSchema.wellFormed_of_mem_arranged hl hd ht
  have hflags : (FoldContext.ofTables l.schema o symbols convert).flags =
      if o.onlyEnums then l.schema.flagsType else l.schema.flags := rfl
  rw [hflags] at hfails
  refine ⟨hfails, ?_⟩
  have hinjective : Function.Injective (Option.map FoldError.construction) :=
    Option.map_injective fun _ _ => FoldError.construction.inj
  rw [EnforcesOneOf, hfails, hinjective.eq_iff]
  cases o.onlyEnums with
  | true => exact ⟨fun h _ => h, fun h => h rfl⟩
  | false => exact ⟨fun _ h => absurd h (by decide), fun _ => rfl⟩

/-- An input object that its definition marks is refused under `onlyEnums`, for a field that its
extension adds. -/
theorem FoldContext.enforcesOneOf_iff_extendedFields :
    ∃ d l symbols, Document.parse?
        "input P @oneOf \x7b a: Int \x7d extend input P \x7b b: [Int]! c: Int! \x7d" = some d ∧
      LoadedSchema.ofDocument (.concat [d]) = .ok l ∧
        SymbolTables.build l.schema { onlyEnums := true } none = .ok symbols ∧
          failure? (Fold.outcome (Fold.document (.ofTables l.schema { onlyEnums := true } symbols
            Convention.keep.apply) l.arranged) {}) = some (.construction ⟨"P", "b"⟩) ∧
          (FoldContext.ofTables l.schema { onlyEnums := true } symbols
            Convention.keep.apply).EnforcesOneOf l.arranged := by
  have hloads : (Document.parse?
      "input P @oneOf \x7b a: Int \x7d extend input P \x7b b: [Int]! c: Int! \x7d").any fun d =>
        (LoadedSchema.ofDocument (.concat [d])).toOption.any fun l =>
          (SymbolTables.build l.schema { onlyEnums := true } none).toOption.any fun _ =>
            decide (l.arranged.firstViolation? l.schema.flagsType = some ⟨"P", "b"⟩ ∧
              l.arranged.firstViolation? l.schema.flags = some ⟨"P", "b"⟩) := by
    decide +kernel
  simp only [Option.any_eq_true, decide_eq_true_eq] at hloads
  obtain ⟨d, hd, l, hl, symbols, hsymbols, htypes, hall⟩ := hloads
  obtain ⟨hfails, hiff⟩ := enforcesOneOf_iff
    (List.forall_mem_singleton.2 ⟨_, hd⟩) (eq_ok_of_toOption hl) { onlyEnums := true } symbols
    Convention.keep.apply
  refine ⟨d, l, symbols, hd, eq_ok_of_toOption hl, eq_ok_of_toOption hsymbols, ?_, ?_⟩
  · rw [hfails, if_pos rfl, htypes]
    rfl
  · exact hiff.2 fun _ => htypes.trans hall.symm

/-- Under `onlyEnums` an input object that only its extension marks passes with a field that may
not be null. -/
theorem FoldContext.not_enforcesOneOf_markedByExtension :
    ∃ l symbols, LoadedSchema.ofText "input P \x7b a: Int! \x7d extend input P @oneOf" = .ok l ∧
      SymbolTables.build l.schema { onlyEnums := true } none = .ok symbols ∧
        l.arranged.firstViolation? l.schema.flags = some ⟨"P", "a"⟩ ∧
          ¬(FoldContext.ofTables l.schema { onlyEnums := true } symbols
            Convention.keep.apply).EnforcesOneOf l.arranged := by
  have hloads : (LoadedSchema.ofText
      "input P \x7b a: Int! \x7d extend input P @oneOf").toOption.any fun l =>
        (SymbolTables.build l.schema { onlyEnums := true } none).toOption.any fun symbols =>
          decide (l.arranged.firstViolation? l.schema.flags = some ⟨"P", "a"⟩ ∧
            failure? (Fold.outcome (Fold.document (.ofTables l.schema { onlyEnums := true }
              symbols Convention.keep.apply) l.arranged) {}) = none) := by
    decide +kernel
  simp only [Option.any_eq_true, decide_eq_true_eq] at hloads
  obtain ⟨l, hl, symbols, hsymbols, hviolation, hpasses⟩ := hloads
  refine ⟨l, symbols, eq_ok_of_toOption hl, eq_ok_of_toOption hsymbols, hviolation, fun h => ?_⟩
  unfold EnforcesOneOf at h
  rw [hpasses] at h
  have hnone : l.arranged.firstViolation? l.schema.flags = none := Option.map_eq_none_iff.1 h.symm
  rw [hviolation] at hnone
  cases hnone

end SdlTypes
