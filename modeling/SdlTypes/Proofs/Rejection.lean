import SdlTypes.Proofs.OneOfRule
import SdlTypes.Proofs.Tables

/-!
# Rejected options

A run looks at its options before it folds anything: at the naming convention, then at the scalars
that have to be configured, then at the enums that are configured one by one.
`Options.RejectedWith` says with which error options are rejected for a schema, and
`Module.rejects_iff` that a run fails with exactly that one.

All other failures come from what a run is given beside its options. An enum may have a value whose
deprecation gives no text as its reason, which is found if the values are read at all
(`Options.ReadsValues`). And a definition may be one that cannot be folded
(`Sdl.TypeDef.FailsWith`): an input object of which one field is set with a field that may not be
null, or a definition with a member of the wrong kind.
-/

namespace SdlTypes

open Sdl

/-! ## The naming convention -/

/-- The part of a text behind the last occurrence of a character; all of it if there is none. -/
def Text.IsTail (mark : Char) (s tail : String) : Prop :=
  mark ∉ tail.toList ∧ (s = tail ∨ ∃ front, s.toList = front ++ mark :: tail.toList)

theorem Text.exists_isTail (mark : Char) (s : String) : ∃ tail, IsTail mark s tail := by
  by_cases hmem : mark ∈ s.toList
  · -- The last occurrence is the first one from behind.
    obtain ⟨back, front, heq, hfree⟩ := List.eq_append_cons_of_mem (List.mem_reverse.2 hmem)
    refine ⟨String.ofList back.reverse, ?_, .inr ⟨front.reverse, ?_⟩⟩
    · simpa using hfree
    · have hs := congrArg List.reverse heq
      simpa using hs
  · exact ⟨s, hmem, .inl rfl⟩

namespace Convention

theorem spellingTail_of_isTail {s tail : String} (h : Text.IsTail '#' s tail) :
    spellingTail s = tail := by
  obtain ⟨hfree, hs⟩ := h
  have hlast : tail.toList.splitOnP (· == '#') = [tail.toList] := by
    refine List.splitOnP_eq_singleton fun c hc => ?_
    rw [beq_eq_false_iff_ne]
    rintro rfl
    exact hfree hc
  have hsplit : ∃ pieces, s.toList.splitOn '#' = pieces ++ [tail.toList] := by
    rcases hs with rfl | ⟨front, hs⟩
    · exact ⟨[], hlast⟩
    · refine ⟨front.splitOnP (· == '#'), ?_⟩
      rw [hs, ← hlast]
      exact List.splitOnP_append_cons (p := (· == '#')) front _ rfl
  obtain ⟨pieces, hsplit⟩ := hsplit
  rw [spellingTail, Text.split, hsplit, List.map_append, List.map_singleton,
    List.getLast?_concat, String.ofList_toList]
  rfl

theorem mem_all (c : Convention) : c ∈ all := by
  cases c <;> decide

end Convention

/-- The part of the naming convention behind its last number sign is no convention. -/
def Options.HasUnknownConvention (o : Options) : Prop :=
  ∃ tail, Text.IsTail '#' o.namingConvention tail ∧ ∀ c : Convention, c.name ≠ tail

/-- The error for such a naming convention. -/
def Options.conventionError (o : Options) : ConfigError :=
  .unknownConvention o.namingConvention (Convention.all.map Convention.name)

theorem Options.hasUnknownConvention_iff {o : Options} :
    o.HasUnknownConvention ↔
      ∀ c : Convention, c.name ≠ Convention.spellingTail o.namingConvention := by
  constructor
  · rintro ⟨tail, htail, h⟩ c
    rw [Convention.spellingTail_of_isTail htail]
    exact h c
  · intro h
    obtain ⟨tail, htail⟩ := Text.exists_isTail '#' o.namingConvention
    refine ⟨tail, htail, fun c => ?_⟩
    rw [← Convention.spellingTail_of_isTail htail]
    exact h c

/-- There is no function on names if the convention is unknown, and only then. -/
theorem SymbolTables.conversion_eq_error_iff {o : Options} {e : ConfigError} :
    conversion o none = .error e ↔ o.HasUnknownConvention ∧ e = o.conventionError := by
  have hmap : conversion o none = .error e ↔
      Convention.ofSpelling o.namingConvention = .error e := by
    change (Convention.ofSpelling o.namingConvention).map Convention.apply = _ ↔ _
    rw [← failure?_eq_some_iff, failure?_map, failure?_eq_some_iff]
  rw [hmap, Options.hasUnknownConvention_iff, Convention.ofSpelling]
  cases hfind : Convention.all.find? fun c =>
      c.name == Convention.spellingTail o.namingConvention with
  | some c =>
    have hname : c.name = Convention.spellingTail o.namingConvention := by
      simpa using List.find?_some hfind
    constructor
    · rintro ⟨⟩
    · rintro ⟨hall, -⟩
      exact absurd hname (hall c)
  | none =>
    have hall (c : Convention) : c.name ≠ Convention.spellingTail o.namingConvention := by
      simpa using List.find?_eq_none.1 hfind c c.mem_all
    constructor
    · rintro ⟨⟩
      exact ⟨hall, rfl⟩
    · rintro ⟨-, rfl⟩
      rfl

/-! ## The tables -/

/-- The first custom scalar that is not configured although all of them have to be. -/
def Options.LacksScalar (o : Options) (s : Schema) (name : String) : Prop :=
  o.strictScalars = true ∧ s.customScalars.find? (fun n => n ∉ o.scalars.keys) = some name

/-- Enums are configured one by one, and these names among them are no enums of the schema. -/
def Options.NamesUnknownEnums (o : Options) (s : Schema) (names : List String) : Prop :=
  ∃ pointers, o.enumValues = some (.each pointers) ∧
    names = pointers.keys.filter (fun n => n ∉ s.enums.map NamedType.name) ∧ names ≠ []

/-- The values of enums are read: the enums do not all come from one module, and internal values
count. -/
def Options.ReadsValues (o : Options) : Prop :=
  (∀ source, o.enumValues ≠ some (.module source)) ∧ o.ignoreEnumValuesFromSchema = false

/-- The values of the first such enum of a schema cannot be read. -/
def Schema.HasUnreadableEnum (s : Schema) (name : String) : Prop :=
  ∃ t, s.enums.find? (fun t => !t.hasSoundValues) = some t ∧ t.name = name

/-- The scalars that have to be configured and are not. -/
theorem Scalars.failure?_customEntry (o : Options) (name : String) :
    failure? (customEntry o name) =
      (Option.guard (fun n => o.strictScalars && decide (n ∉ o.scalars.keys)) name).map
        .unknownScalar := by
  simp only [OrderedMap.mem_keys_iff, customEntry, Option.guard]
  cases o.scalars.find? name with
  | some pointer => simp [failure?]
  | none => cases o.strictScalars <;> rfl

/-- The table of scalars lacks the first one that has to be configured and is not. -/
theorem Scalars.table_eq_error_iff {s : Schema} {o : Options} {e : ConfigError} :
    Scalars.table s o = .error e ↔ ∃ name, o.LacksScalar s name ∧ e = .unknownScalar name := by
  have htable : failure? (Scalars.table s o) =
      (s.customScalars.find? fun n => o.strictScalars && decide (n ∉ o.scalars.keys)).map
        .unknownScalar := by
    change failure? ((s.customScalars.mapM (customEntry o)).map _) = _
    rw [failure?_map, failure?_mapM, List.find?_eq_findSome?_guard, List.map_findSome?]
    simp only [failure?_customEntry, Function.comp_def]
  rw [← failure?_eq_some_iff, htable, Option.map_eq_some_iff]
  refine exists_congr fun name => and_congr ?_ eq_comm
  rw [Options.LacksScalar]
  cases o.strictScalars with
  | true => simp
  | false => simp [List.find?_eq_some_iff_append]

/-- What is configured one by one. -/
theorem Enums.unknownNames_of_each {s : Schema} {o : Options} {pointers : OrderedMap EnumPointer}
    (h : o.enumValues = some (.each pointers)) :
    unknownNames s o = pointers.keys.filter fun n => n ∉ s.enums.map NamedType.name := by
  rw [unknownNames, configured, h]

/-- The names that are configured but unknown, if there are any. -/
theorem Options.namesUnknownEnums_iff {o : Options} {s : Schema} {names : List String} :
    o.NamesUnknownEnums s names ↔ (∀ source, o.enumValues ≠ some (.module source)) ∧
      names = Enums.unknownNames s o ∧ names ≠ [] := by
  constructor
  · rintro ⟨pointers, ho, rfl, hne⟩
    refine ⟨fun source hm => ?_, (Enums.unknownNames_of_each ho).symm, hne⟩
    rw [ho] at hm
    cases hm
  · rintro ⟨hm, rfl, hne⟩
    cases ho : o.enumValues with
    | none =>
      refine absurd ?_ hne
      rw [Enums.unknownNames, Enums.configured, ho]
      rfl
    | some option =>
      cases option with
      | module source => exact absurd ho (hm source)
      | each pointers => exact ⟨pointers, ho, Enums.unknownNames_of_each ho, hne⟩

theorem Enums.pointersOf_eq_error_iff {s : Schema} {o : Options} {e : TableError} :
    pointersOf s o = .error e ↔ o.ignoreEnumValuesFromSchema = false ∧
      ∃ name, s.HasUnreadableEnum name ∧ e = .badReason name := by
  unfold pointersOf Schema.HasUnreadableEnum
  cases o.ignoreEnumValuesFromSchema with
  | true => simp
  | false =>
    cases s.enums.find? fun t => !t.hasSoundValues with
    | none => simp
    | some t => simp [eq_comm]

/-- The table of enums is not built if unknown names are configured, or else if values are read
that cannot be. -/
theorem Enums.table_eq_error_iff {s : Schema} {o : Options} {convert : String → String}
    {e : TableError} :
    Enums.table s o convert = .error e ↔
      (∃ names, o.NamesUnknownEnums s names ∧ e = .config (.unknownEnums names)) ∨
      (∀ names, ¬o.NamesUnknownEnums s names) ∧ o.ReadsValues ∧
        ∃ name, s.HasUnreadableEnum name ∧ e = .badReason name := by
  by_cases hm : ∃ source, o.enumValues = some (.module source)
  · obtain ⟨source, hm⟩ := hm
    have hknown : ∀ names, ¬o.NamesUnknownEnums s names := fun names h =>
      (Options.namesUnknownEnums_iff.1 h).1 source hm
    constructor
    · intro h
      unfold Enums.table at h
      rw [hm] at h
      cases h
    · rintro (⟨names, h, -⟩ | ⟨-, hreads, -⟩)
      · exact absurd h (hknown names)
      · exact absurd hm (hreads.1 source)
  · rw [not_exists] at hm
    rw [table_of_each s convert hm]
    by_cases hne : unknownNames s o = []
    · have hknown : ∀ names, ¬o.NamesUnknownEnums s names := by
        intro names h
        obtain ⟨-, rfl, h⟩ := Options.namesUnknownEnums_iff.1 h
        exact h hne
      rw [if_neg (not_not.2 hne), ← failure?_eq_some_iff, failure?_map, failure?_eq_some_iff,
        pointersOf_eq_error_iff]
      constructor
      · rintro ⟨hreads, h⟩
        exact .inr ⟨hknown, ⟨hm, hreads⟩, h⟩
      · rintro (⟨names, h, -⟩ | ⟨-, hreads, h⟩)
        · exact absurd h (hknown names)
        · exact ⟨hreads.2, h⟩
    · have hunknown : o.NamesUnknownEnums s (unknownNames s o) :=
        Options.namesUnknownEnums_iff.2 ⟨hm, rfl, hne⟩
      rw [if_pos hne]
      constructor
      · rintro ⟨⟩
        exact .inl ⟨_, hunknown, rfl⟩
      · rintro (⟨names, h, rfl⟩ | ⟨hknown, -⟩)
        · rw [(Options.namesUnknownEnums_iff.1 h).2.1]
        · exact absurd hunknown (hknown _)

/-! ## Definitions that cannot be folded -/

/-- Why a definition cannot be folded for a schema. -/
inductive Sdl.TypeDef.FailsWith (s : Schema) (d : TypeDef) : FoldError → Prop
  /-- An input object of which one field is set has a field that may not be null. -/
  | required {v : InputValueDef} (hk : d.kind = .input) (hflag : s.flags d = true)
    (hv : .input v ∈ d.body.members) (hr : v.type.required = true) :
    FailsWith s d (.construction ⟨d.name, v.name⟩)
  /-- An input value stands among the fields of an object or interface. -/
  | strayInput {v : InputValueDef} (hk : d.kind = .object ∨ d.kind = .interface)
    (hv : .input v ∈ d.body.members) : FailsWith s d (.strayMember v.name)
  /-- A field stands among the fields of an input object. -/
  | strayField {f : FieldDef} (hk : d.kind = .input) (hf : .field f ∈ d.body.members) :
    FailsWith s d (.strayMember f.name)

namespace FoldContext

variable {c : FoldContext} {d : TypeDef} {e : FoldError}

theorem failsWith_of_fieldResult (hk : d.kind = .object ∨ d.kind = .interface)
    (h : d.body.members.mapM c.fieldResult = .error e) : d.FailsWith c.schema e := by
  obtain ⟨m, hm, h⟩ := exists_error_of_mapM h
  cases m with
  | field f => cases h
  | input v =>
    cases h
    exact .strayInput hk hm

theorem failsWith_of_inputResult (hk : d.kind = .input)
    (h : d.body.members.mapM (c.inputResult d.name) = .error e) : d.FailsWith c.schema e := by
  obtain ⟨m, hm, h⟩ := exists_error_of_mapM h
  cases m with
  | field f =>
    cases h
    exact .strayField hk hm
  | input v =>
    have hverdict : c.verdict d.name (c.inputProperty true v) = .error e := by
      rw [inputResult, ← failure?_eq_some_iff, failure?_map] at h
      exact failure?_eq_some_iff.1 h
    unfold verdict OneOf.checkNullable at hverdict
    split_ifs at hverdict with hflag hrequired
    · cases hverdict
      exact .required hk (Schema.flags_of_flagsType hflag) hm hrequired
    all_goals cases hverdict

theorem failsWith_of_inputStatements {vs : List InputValueDef} (hk : d.kind = .input)
    (hvs : d.body.members = vs.map Member.input)
    (h : c.inputStatements d (vs.map (c.inputProperty true)) = .error e) :
    d.FailsWith c.schema e := by
  unfold inputStatements inputBody at h
  split_ifs at h with honly hflag
  · rw [OneOf.arms, forM_checkNullable] at h
    cases hfind : vs.find? fun v => v.type.required with
    | none =>
      rw [hfind] at h
      cases h
    | some v =>
      rw [hfind] at h
      cases h
      refine .required hk hflag ?_ (by simpa using List.find?_some hfind)
      rw [hvs]
      exact List.mem_map_of_mem (List.mem_of_find?_eq_some hfind)
  · cases h

/-- A definition that fails is one of these. -/
theorem failsWith_of_result {x : Definition} (h : c.result x = .error e) :
    ∃ d, x = .type d ∧ d.FailsWith c.schema e := by
  cases x with
  | type d =>
    refine ⟨d, rfl, ?_⟩
    change c.typeResult d = .error e at h
    unfold typeResult at h
    cases hk : d.kind with
    | object =>
      rw [hk, ← failure?_eq_some_iff] at h
      exact failsWith_of_fieldResult (.inl hk) (failure?_eq_some_iff.1 (failure?_map _ _ ▸ h))
    | interface =>
      rw [hk, ← failure?_eq_some_iff] at h
      exact failsWith_of_fieldResult (.inr hk) (failure?_eq_some_iff.1 (failure?_map _ _ ▸ h))
    | input =>
      rw [hk] at h
      rcases error_of_bind h with h | ⟨ps, hps, h⟩
      · exact failsWith_of_inputResult hk h
      · obtain ⟨vs, hvs, rfl⟩ := exists_inputs_of_mapM hps
        exact failsWith_of_inputStatements hk hvs h
    | _ =>
      rw [hk] at h
      cases h
  | _ => cases h

end FoldContext

/-! ## The run -/

/-- The error with which options are rejected for a schema: that of the first of three defects. -/
inductive Options.RejectedWith (o : Options) (s : Schema) : ConfigError → Prop
  /-- The naming convention is unknown. -/
  | convention (h : o.HasUnknownConvention) : RejectedWith o s o.conventionError
  /-- A scalar has to be configured and is not. -/
  | scalar {name : String} (hconvention : ¬o.HasUnknownConvention) (h : o.LacksScalar s name) :
    RejectedWith o s (.unknownScalar name)
  /-- Names are configured that are no enums. -/
  | enums {names : List String} (hconvention : ¬o.HasUnknownConvention)
    (hscalar : ∀ name, ¬o.LacksScalar s name) (h : o.NamesUnknownEnums s names) :
    RejectedWith o s (.unknownEnums names)

/-- Options with one of the defects are rejected. -/
theorem Options.exists_rejectedWith_iff {o : Options} {s : Schema} :
    (∃ e, o.RejectedWith s e) ↔
      o.HasUnknownConvention ∨ (∃ name, o.LacksScalar s name) ∨
        ∃ names, o.NamesUnknownEnums s names := by
  constructor
  · rintro ⟨e, h | ⟨-, h⟩ | ⟨-, -, h⟩⟩
    · exact .inl h
    · exact .inr (.inl ⟨_, h⟩)
    · exact .inr (.inr ⟨_, h⟩)
  · intro h
    by_cases hconvention : o.HasUnknownConvention
    · exact ⟨_, .convention hconvention⟩
    by_cases hscalar : ∃ name, o.LacksScalar s name
    · obtain ⟨name, hscalar⟩ := hscalar
      exact ⟨_, .scalar hconvention hscalar⟩
    obtain ⟨names, hnames⟩ := (h.resolve_left hconvention).resolve_left hscalar
    exact ⟨_, .enums hconvention (not_exists.1 hscalar) hnames⟩

/-- Every name that is configured but unknown is listed once. -/
theorem Options.NamesUnknownEnums.nodup {o : Options} {s : Schema} {names : List String}
    (h : o.NamesUnknownEnums s names) : names.Nodup := by
  obtain ⟨pointers, -, rfl, -⟩ := h
  exact pointers.nodup.filter _

/-- The tables are not built for want of a scalar, or else for the enums. -/
theorem SymbolTables.build_eq_error_iff {s : Schema} {o : Options} {convert : String → String}
    {e : TableError} :
    build s o (some convert) = .error e ↔
      (∃ name, o.LacksScalar s name ∧ e = .config (.unknownScalar name)) ∨
      (∀ name, ¬o.LacksScalar s name) ∧ Enums.table s o convert = .error e := by
  have hstages : failure? (build s o (some convert)) =
      ((failure? (Scalars.table s o)).map .config).or
        ((Scalars.table s o).toOption.bind fun _ => failure? (Enums.table s o convert)) := by
    rw [build]
    cases Scalars.table s o with
    | error e => rfl
    | ok scalars =>
      change failure? ((Enums.table s o convert).bind _) = _
      cases Enums.table s o convert <;> rfl
  rw [← failure?_eq_some_iff, hstages]
  cases htable : Scalars.table s o with
  | error e' =>
    obtain ⟨name, hname, rfl⟩ := Scalars.table_eq_error_iff.1 htable
    constructor
    · rintro ⟨⟩
      exact .inl ⟨name, hname, rfl⟩
    · rintro (⟨name', hname', rfl⟩ | ⟨hall, -⟩)
      · rw [Option.some.inj (hname.2.symm.trans hname'.2)]
        rfl
      · exact absurd hname (hall name)
  | ok scalars =>
    have hall : ∀ name, ¬o.LacksScalar s name := fun name h => by
      have herror := Scalars.table_eq_error_iff.2 ⟨name, h, rfl⟩
      rw [htable] at herror
      cases herror
    change failure? (Enums.table s o convert) = some e ↔ _
    rw [failure?_eq_some_iff]
    constructor
    · exact fun h => .inr ⟨hall, h⟩
    · rintro (⟨name, h, -⟩ | ⟨-, h⟩)
      · exact absurd h (hall name)
      · exact h

namespace Module

variable {s : Schema} {o : Options} {document : Option Document} {further : List String}

/-- A run fails at the naming convention, or else at the tables, or else at a definition. -/
theorem generate_eq_error_iff {g : GenerationError} :
    generate s o document none further = .error g ↔
      (∃ e, SymbolTables.conversion o none = .error e ∧ g = .tables (.config e)) ∨
      (∃ convert e, SymbolTables.conversion o none = .ok convert ∧
        SymbolTables.build s o (some convert) = .error e ∧ g = .tables e) ∨
      ∃ convert symbols e, SymbolTables.conversion o none = .ok convert ∧
        SymbolTables.build s o (some convert) = .ok symbols ∧
        (document.getD (s.arrange none)).definitions.mapM
          (FoldContext.ofTables s o symbols convert).result = .error e ∧ g = .fold e := by
  rw [generate_eq]
  constructor
  · intro h
    rcases error_of_bind h with h | ⟨convert, hconvert, h⟩
    · obtain ⟨e, he, rfl⟩ := error_of_mapError h
      exact .inl ⟨e, he, rfl⟩
    have hconvert := eq_ok_of_mapError hconvert
    rcases error_of_bind h with h | ⟨symbols, hsymbols, h⟩
    · obtain ⟨e, he, rfl⟩ := error_of_mapError h
      exact .inr (.inl ⟨convert, e, hconvert, he, rfl⟩)
    have hsymbols := eq_ok_of_mapError hsymbols
    rcases error_of_bind h with h | ⟨definitions, -, h⟩
    · obtain ⟨e, he, rfl⟩ := error_of_mapError h
      exact .inr (.inr ⟨convert, symbols, e, hconvert, hsymbols, he, rfl⟩)
    · cases h
  · rintro (⟨e, he, rfl⟩ | ⟨convert, e, hconvert, he, rfl⟩ |
      ⟨convert, symbols, e, hconvert, hsymbols, he, rfl⟩)
    · rw [he]
      rfl
    · simp only [hconvert, he, Except.mapError, Except.bind, bind]
    · simp only [hconvert, hsymbols, he, Except.mapError, Except.bind, bind]

/-- With a known naming convention a run looks at the tables. -/
theorem generate_eq_tables_of_conversion {convert : String → String}
    (hconvert : SymbolTables.conversion o none = .ok convert) {e : TableError} :
    generate s o document none further = .error (.tables e) ↔
      SymbolTables.build s o (some convert) = .error e := by
  rw [generate_eq_error_iff]
  constructor
  · rintro (⟨e', he, -⟩ | ⟨convert', e', hconvert', he, heq⟩ | ⟨_, _, _, _, _, _, heq⟩)
    · rw [hconvert] at he
      cases he
    · rw [hconvert] at hconvert'
      cases hconvert'
      cases heq
      exact he
    · cases heq
  · exact fun h => .inr (.inl ⟨convert, e, hconvert, h, rfl⟩)

/-- A run looks at its options first. If they are not rejected the values of enums are read, and
only then are definitions folded. -/
theorem generate_eq_tables_iff {e : TableError} :
    generate s o document none further = .error (.tables e) ↔
      (∃ e', o.RejectedWith s e' ∧ e = .config e') ∨
      (∀ e', ¬o.RejectedWith s e') ∧ o.ReadsValues ∧
        ∃ name, s.HasUnreadableEnum name ∧ e = .badReason name := by
  cases hconversion : SymbolTables.conversion o none with
  | error unknown =>
    obtain ⟨hconvention, rfl⟩ := SymbolTables.conversion_eq_error_iff.1 hconversion
    constructor
    · intro h
      rcases generate_eq_error_iff.1 h with ⟨e', he, heq⟩ | ⟨_, _, hok, -⟩ | ⟨_, _, _, hok, -⟩
      · rw [hconversion] at he
        cases he
        cases heq
        exact .inl ⟨_, .convention hconvention, rfl⟩
      all_goals
        rw [hconversion] at hok
        cases hok
    · rintro (⟨e', h | ⟨hno, -⟩ | ⟨hno, -, -⟩, rfl⟩ | ⟨hnone, -⟩)
      · exact generate_eq_error_iff.2 (.inl ⟨_, hconversion, rfl⟩)
      · exact absurd hconvention hno
      · exact absurd hconvention hno
      · exact absurd (.convention hconvention) (hnone _)
  | ok convert =>
    have hconvention : ¬o.HasUnknownConvention := fun h => by
      have herror := SymbolTables.conversion_eq_error_iff.2 ⟨h, rfl⟩
      rw [hconversion] at herror
      cases herror
    rw [generate_eq_tables_of_conversion hconversion, SymbolTables.build_eq_error_iff,
      Enums.table_eq_error_iff]
    constructor
    · rintro (⟨name, h, rfl⟩ | ⟨hscalar, ⟨names, h, rfl⟩ | ⟨hnames, hreads, h⟩⟩)
      · exact .inl ⟨_, .scalar hconvention h, rfl⟩
      · exact .inl ⟨_, .enums hconvention hscalar h, rfl⟩
      · refine .inr ⟨?_, hreads, h⟩
        rintro _ (h | ⟨-, h⟩ | ⟨-, -, h⟩)
        · exact hconvention h
        · exact hscalar _ h
        · exact hnames _ h
    · rintro (⟨_, h | ⟨-, h⟩ | ⟨-, hscalar, h⟩, rfl⟩ | ⟨hnone, hreads, h⟩)
      · exact absurd h hconvention
      · exact .inl ⟨_, h, rfl⟩
      · exact .inr ⟨hscalar, .inl ⟨_, h, rfl⟩⟩
      · have hscalar : ∀ name, ¬o.LacksScalar s name := fun name h =>
          hnone _ (.scalar hconvention h)
        exact .inr ⟨hscalar, .inr ⟨fun names h => hnone _ (.enums hconvention hscalar h),
          hreads, h⟩⟩

/-- Options are rejected with the errors that runs give for them. -/
theorem generate_eq_config_iff {e : ConfigError} :
    generate s o document none further = .error (.tables (.config e)) ↔ o.RejectedWith s e := by
  rw [generate_eq_tables_iff]
  constructor
  · rintro (⟨e', h, heq⟩ | ⟨-, -, name, -, heq⟩)
    · cases heq
      exact h
    · cases heq
  · exact fun h => .inl ⟨e, h, rfl⟩

/-- What a run fails with behind its options: a definition of the document that cannot be folded. -/
theorem exists_failsWith_of_fold {e : FoldError}
    (h : generate s o document none further = .error (.fold e)) :
    ∃ d, .type d ∈ (document.getD (s.arrange none)).definitions ∧ d.FailsWith s e := by
  rcases generate_eq_error_iff.1 h with ⟨_, _, heq⟩ | ⟨_, _, _, _, heq⟩ |
    ⟨convert, symbols, e', -, -, he, heq⟩
  · cases heq
  · cases heq
  · cases heq
    obtain ⟨x, hx, he⟩ := exists_error_of_mapM he
    obtain ⟨d, rfl, hd⟩ := FoldContext.failsWith_of_result he
    exact ⟨d, hx, hd⟩

variable (s o document further) in
/-- A run without a function on names of its own rejects its options exactly if the naming
convention is unknown, or a scalar has to be configured and is not, or names are configured that
are no enums of the schema; the error is that of the first of these, and lists every such name
once. If options are not rejected a run can only fail since the values of an enum are read that
cannot be, or since one of the definitions cannot be folded. -/
theorem rejects_iff :
    ((∃ e, generate s o document none further = .error (.tables (.config e))) ↔
      o.HasUnknownConvention ∨ (∃ name, o.LacksScalar s name) ∨
        ∃ names, o.NamesUnknownEnums s names) ∧
    (∀ e, generate s o document none further = .error (.tables (.config e)) ↔
      o.RejectedWith s e) ∧
    (∀ names, o.RejectedWith s (.unknownEnums names) → names.Nodup) ∧
    (∀ name, generate s o document none further = .error (.tables (.badReason name)) ↔
      (∀ e, ¬o.RejectedWith s e) ∧ o.ReadsValues ∧ s.HasUnreadableEnum name) ∧
    ∀ e, generate s o document none further = .error (.fold e) →
      ∃ d, .type d ∈ (document.getD (s.arrange none)).definitions ∧ d.FailsWith s e := by
  refine ⟨?_, fun e => generate_eq_config_iff, ?_, fun name => ?_,
    fun e => exists_failsWith_of_fold⟩
  · simp only [generate_eq_config_iff]
    exact Options.exists_rejectedWith_iff
  · rintro names (_ | _ | ⟨-, -, h⟩)
    exact h.nodup
  · rw [generate_eq_tables_iff]
    constructor
    · rintro (⟨_, -, heq⟩ | ⟨hnone, hreads, name', h, heq⟩)
      · cases heq
      · cases heq
        exact ⟨hnone, hreads, h⟩
    · rintro ⟨hnone, hreads, h⟩
      exact .inr ⟨hnone, hreads, name, h, rfl⟩

/-- Options that are not rejected may fail with no construction error: since a deprecation gives no
text as its reason, or since an extension belongs to a type of another kind. -/
theorem fails_with_default_options :
    (∃ l, LoadedSchema.ofText "enum E \x7b A @deprecated(reason: 3) \x7d" = .ok l ∧
      (∀ e, ¬({} : Options).RejectedWith l.schema e) ∧
        generate l.schema {} (some l.arranged) none [] = .error (.tables (.badReason "E"))) ∧
    ∃ l d, LoadedSchema.ofText
        "input T \x7b a: Int \x7d extend input T \x7b b: Int \x7d" = .ok l ∧
      Document.parse? "type T \x7b x: Int \x7d" = some d ∧
      (∀ e, ¬({} : Options).RejectedWith l.schema e) ∧
        generate l.schema {} (some (l.schema.arrange (some d))) none [] =
          .error (.fold (.strayMember "b")) := by
  have hreason : (LoadedSchema.ofText
      "enum E \x7b A @deprecated(reason: 3) \x7d").toOption.any fun l =>
        decide (failure? (generate l.schema {} (some l.arranged) none []) =
          some (.tables (.badReason "E"))) := by
    decide +kernel
  have hstray : (LoadedSchema.ofText
      "input T \x7b a: Int \x7d extend input T \x7b b: Int \x7d").toOption.any fun l =>
        (Document.parse? "type T \x7b x: Int \x7d").any fun d =>
          decide (failure? (generate l.schema {} (some (l.schema.arrange (some d))) none []) =
            some (.fold (.strayMember "b"))) := by
    decide +kernel
  simp only [Option.any_eq_true, decide_eq_true_eq, failure?_eq_some_iff] at hreason hstray
  -- Options that were rejected would give another error.
  constructor
  · obtain ⟨l, hl, hfails⟩ := hreason
    refine ⟨l, eq_ok_of_toOption hl, fun e he => ?_, hfails⟩
    cases hfails.symm.trans (generate_eq_config_iff.2 he)
  · obtain ⟨l, hl, d, hd, hfails⟩ := hstray
    refine ⟨l, d, eq_ok_of_toOption hl, hd, fun e he => ?_, hfails⟩
    cases hfails.symm.trans (generate_eq_config_iff.2 he)

end Module

end SdlTypes
