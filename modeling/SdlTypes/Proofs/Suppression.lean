import SdlTypes.Proofs.DeclarationCode
import SdlTypes.Proofs.FoldOutcome

/-!
# Suppressed definitions

Two options leave definitions out: `onlyOperationTypes` objects, interfaces and unions, `onlyEnums`
input objects as well. What is left out is folded all the same, and then gives nothing. So a run
with such an option is a run without it on a smaller document, `Document.withoutOutputTypes` or
`Document.enumsAlone`, as far as nothing fails in what is left out.

Objects, interfaces and unions fail for one reason only: an input value among the members of an
object or interface (`TypeDef.stray?`), which merging an extension of an input object can bring
there (`FoldContext.failure?_typeResult_of_isOutputType`). Input objects may fail by the rule for
oneOf, which is why `onlyEnums` gives what the enums alone give when it gives anything.
-/

namespace SdlTypes

open Sdl

/-! ## What is left out -/

namespace Sdl

/-- The name of a member that is an input value. -/
def Member.inputName? : Member → Option String
  | .field _ => none
  | .input v => some v.name

/-- Whether a definition is that of an object, an interface or a union. -/
def TypeDef.isOutputType (d : TypeDef) : Bool :=
  d.kind == .object || d.kind == .interface || d.kind == .union

/-- The first input value among the members of an object or interface. -/
def TypeDef.stray? (d : TypeDef) : Option String :=
  if d.kind = .object ∨ d.kind = .interface then d.body.members.findSome? Member.inputName?
  else none

namespace Definition

/-- Whether a definition is that of an object, an interface or a union. -/
def isOutputType (x : Definition) : Bool :=
  x.typeDef?.any TypeDef.isOutputType

/-- Whether a definition is that of an enum. -/
def isEnum (x : Definition) : Bool :=
  x.typeDef?.any fun d => d.kind == .enum

@[simp] theorem isOutputType_type (d : TypeDef) : (type d).isOutputType = d.isOutputType := rfl

@[simp] theorem isEnum_type (d : TypeDef) : (type d).isEnum = (d.kind == .enum) := rfl

end Definition

namespace Document

/-- The document without its objects, interfaces and unions. -/
def withoutOutputTypes (d : Document) : Document :=
  ⟨d.definitions.filter fun x => !x.isOutputType⟩

/-- The document of the enums of a document. -/
def enumsAlone (d : Document) : Document :=
  ⟨d.definitions.filter Definition.isEnum⟩

end Document

end Sdl

namespace FoldContext

variable (c : FoldContext)

/-- The context of a run that differs from another in `onlyOperationTypes` at most. -/
def operationTypesOnly (on : Bool) : FoldContext :=
  c.withOptions { c.options with onlyOperationTypes := on }

/-- The context of a run that differs from another in `onlyEnums` at most. -/
def enumsOnly (on : Bool) : FoldContext :=
  c.withOptions { c.options with onlyEnums := on }

/-! ## The fold of a definition -/

theorem failure?_mapM_fieldResult (ms : List Member) :
    failure? (ms.mapM c.fieldResult) = (ms.findSome? Member.inputName?).map .strayMember := by
  rw [failure?_mapM, List.map_findSome?]
  refine findSome?_congr_of_mem fun m _ => ?_
  cases m <;> rfl

/-- An object, interface or union fails for an input value among its members, and for nothing
else. -/
theorem failure?_typeResult_of_isOutputType {d : TypeDef} (hd : d.isOutputType = true) :
    failure? (c.typeResult d) = d.stray?.map .strayMember := by
  unfold typeResult TypeDef.stray?
  simp only [TypeDef.isOutputType, Bool.or_eq_true, beq_iff_eq] at hd
  rcases hd with (hk | hk) | hk
  · rw [hk]
    dsimp only
    rw [failure?_map, failure?_mapM_fieldResult, if_pos (.inl rfl)]
  · rw [hk]
    dsimp only
    rw [failure?_map, failure?_mapM_fieldResult, if_pos (.inr rfl)]
  · rw [hk]
    rfl

/-- Where objects, interfaces and unions are left out they give nothing. -/
theorem eq_nil_of_isOutputType (h : c.options.suppressesOutput = true) {d : TypeDef}
    (hd : d.isOutputType = true) {statements : List Statement}
    (hresult : c.typeResult d = .ok statements) : statements = [] := by
  cases becomes_of_typeResult hresult with
  | object => exact if_pos h
  | interface => exact if_pos h
  | union => exact if_pos h
  | enum hk => simp [TypeDef.isOutputType, hk] at hd
  | input hk => simp [TypeDef.isOutputType, hk] at hd
  | hidden => rfl

/-- Where they are left out an object, interface or union fails or gives nothing. -/
theorem typeResult_of_isOutputType (h : c.options.suppressesOutput = true) {d : TypeDef}
    (hd : d.isOutputType = true) :
    c.typeResult d =
      match d.stray? with
      | some name => .error (.strayMember name)
      | none => .ok [] := by
  have hfails := c.failure?_typeResult_of_isOutputType hd
  cases hresult : c.typeResult d with
  | error e =>
    rw [hresult] at hfails
    obtain ⟨name, hname, rfl⟩ := Option.map_eq_some_iff.1 hfails.symm
    rw [hname]
  | ok statements =>
    rw [hresult] at hfails
    rw [Option.map_eq_none_iff.1 hfails.symm, c.eq_nil_of_isOutputType h hd hresult]

/-- What is no object, interface or union is the same under `onlyOperationTypes`. -/
theorem result_operationTypesOnly {x : Definition} (hx : x.isOutputType = false) (on : Bool) :
    (c.operationTypesOnly on).result x = c.result x := by
  cases x with
  | type d =>
    simp only [Definition.isOutputType_type, TypeDef.isOutputType, Bool.or_eq_false_iff,
      beq_eq_false_iff_ne, ne_eq] at hx
    obtain ⟨⟨ho, hi⟩, hu⟩ := hx
    change (c.operationTypesOnly on).typeResult d = c.typeResult d
    unfold typeResult
    cases hk : d.kind with
    | object => exact absurd hk ho
    | interface => exact absurd hk hi
    | union => exact absurd hk hu
    | enum | input | scalar => rfl
  | _ => rfl

/-- An enum is the same under `onlyEnums`. -/
theorem result_enumsOnly {x : Definition} (hx : x.isEnum = true) (on : Bool) :
    (c.enumsOnly on).result x = c.result x := by
  cases x with
  | type d =>
    have hk : d.kind = .enum := by simpa using hx
    change (c.enumsOnly on).typeResult d = c.typeResult d
    unfold typeResult
    rw [hk]
    rfl
  | _ => rfl

/-- Under `onlyEnums` nothing but enums gives statements. -/
theorem eq_nil_of_onlyEnums (h : c.options.onlyEnums = true) {x : Definition}
    (hx : x.isEnum = false) {statements : List Statement}
    (hresult : c.result x = .ok statements) : statements = [] := by
  cases x with
  | type d =>
    by_cases hout : d.isOutputType = true
    · have hs : c.options.suppressesOutput = true := by
        rw [Options.suppressesOutput, h, Bool.or_true]
      exact c.eq_nil_of_isOutputType hs hout hresult
    · change c.typeResult d = .ok statements at hresult
      unfold typeResult at hresult
      cases hk : d.kind with
      | enum => simp [hk] at hx
      | input =>
        rw [hk] at hresult
        obtain ⟨ps, -, hstatements⟩ := exists_of_bind hresult
        rw [inputStatements, if_pos h] at hstatements
        exact (Except.ok.inj hstatements).symm
      | object | interface | union => simp [TypeDef.isOutputType, hk] at hout
      | scalar =>
        rw [hk] at hresult
        exact (Except.ok.inj hresult).symm
  | _ => exact (Except.ok.inj hresult).symm

end FoldContext

/-! ## The fold of a document -/

/-- Texts that are not empty are those of definitions that have statements. -/
theorem nonemptyTexts_eq (definitions : List (List Statement)) :
    nonemptyTexts definitions =
      (definitions.filter fun statements => !statements.isEmpty).map statementsText := by
  rw [nonemptyTexts, List.filter_map]
  congr 1
  refine List.filter_congr fun statements _ => ?_
  rw [Function.comp_apply, Bool.eq_iff_iff]
  simp [statementsText_eq_empty_iff]

namespace Fold

/-- A document is folded to the texts of what its definitions become. -/
theorem texts_eq (c : FoldContext) (d : Document) :
    texts c d = ((d.definitions.mapM c.result).map
      (List.filter fun statements => !statements.isEmpty)).map (List.map statementsText) := by
  rw [texts, outcome_document]
  cases d.definitions.mapM c.result with
  | error e => rfl
  | ok definitions => exact congrArg Except.ok (nonemptyTexts_eq definitions)

variable (c : FoldContext) (d : Document)

/-- What is left out under `onlyOperationTypes` fails or gives nothing. -/
theorem result_of_isOutputType {x : Definition} (hx : x.isOutputType = true) :
    ∃ t, x = .type t ∧ (c.operationTypesOnly true).result x =
      match t.stray? with
      | some name => .error (.strayMember name)
      | none => .ok [] := by
  cases x with
  | type t => exact ⟨t, rfl, (c.operationTypesOnly true).typeResult_of_isOutputType rfl hx⟩
  | _ => cases hx

/-- With fields alone in its objects and interfaces a document is folded under `onlyOperationTypes`
as it is without them and without unions. -/
theorem texts_operationTypesOnly (h : ∀ t ∈ d.types, t.stray? = none) :
    texts (c.operationTypesOnly true) d =
      texts (c.operationTypesOnly false) d.withoutOutputTypes := by
  rw [texts_eq, texts_eq]
  refine congrArg (Except.map _) (mapM_filter (fun x _ hx => ?_) fun x hmem hx => ?_).symm
  · have hkept : x.isOutputType = false := by simpa using hx
    rw [c.result_operationTypesOnly hkept, c.result_operationTypesOnly hkept]
  · obtain ⟨t, rfl, hresult⟩ := result_of_isOutputType c (x := x) (by simpa using hx)
    rw [h t (List.mem_filterMap.2 ⟨_, hmem, rfl⟩)] at hresult
    exact ⟨[], hresult, rfl⟩

/-- With an input value in an object or interface a document cannot be folded under
`onlyOperationTypes`. The error is that of such a member, or of what is not left out. -/
theorem exists_error_operationTypesOnly {t : TypeDef} (ht : t ∈ d.types) (h : t.stray? ≠ none) :
    ∃ e, texts (c.operationTypesOnly true) d = .error e ∧
      (texts (c.operationTypesOnly false) d.withoutOutputTypes = .error e ∨
        ∃ u ∈ d.types, ∃ name, u.stray? = some name ∧ e = .strayMember name) := by
  obtain ⟨x, hx, htype⟩ := List.mem_filterMap.1 ht
  have hxt : x = .type t := by
    cases x with
    | type u => exact congrArg Definition.type (Option.some.inj htype)
    | _ => cases htype
  subst hxt
  have hout : t.isOutputType = true := by
    unfold TypeDef.stray? at h
    rw [TypeDef.isOutputType]
    split_ifs at h with hk
    · rcases hk with hk | hk <;> simp [hk]
    · exact absurd rfl h
  rw [texts_eq, texts_eq]
  cases hall : d.definitions.mapM (c.operationTypesOnly true).result with
  | ok definitions =>
    obtain ⟨y, hy⟩ := exists_of_mapM hall _ hx
    obtain ⟨_, heq, hresult⟩ := result_of_isOutputType c (x := .type t) hout
    cases heq
    obtain ⟨name, hname⟩ := Option.ne_none_iff_exists'.1 h
    rw [hname, hy] at hresult
    cases hresult
  | error e =>
    refine ⟨e, rfl, ?_⟩
    have hkept : ∀ x ∈ d.definitions, (!x.isOutputType) = true →
        (c.operationTypesOnly false).result x = (c.operationTypesOnly true).result x := by
      intro x _ hx
      have hkept : x.isOutputType = false := by simpa using hx
      rw [c.result_operationTypesOnly hkept, c.result_operationTypesOnly hkept]
    rcases mapM_filter_of_error hkept hall with hothers | ⟨x, hmem, hx, herror⟩
    · left
      rw [Document.withoutOutputTypes, hothers]
      rfl
    · right
      obtain ⟨u, rfl, hresult⟩ := result_of_isOutputType c (x := x) (by simpa using hx)
      refine ⟨u, List.mem_filterMap.2 ⟨_, hmem, rfl⟩, ?_⟩
      rw [herror] at hresult
      cases hu : u.stray? with
      | none =>
        rw [hu] at hresult
        cases hresult
      | some name =>
        rw [hu] at hresult
        exact ⟨name, rfl, Except.error.inj hresult⟩

/-- What a document is folded to under `onlyEnums` is what its enums are folded to. -/
theorem texts_enumsAlone {l : List String} (h : texts (c.enumsOnly true) d = .ok l) :
    texts (c.enumsOnly false) d.enumsAlone = .ok l := by
  rw [texts_eq] at h ⊢
  obtain ⟨_, hfiltered, rfl⟩ := exists_of_map h
  obtain ⟨all, hall, rfl⟩ := exists_of_map hfiltered
  have henums : ((d.definitions.filter Definition.isEnum).mapM (c.enumsOnly false).result).map
      (List.filter fun statements => !statements.isEmpty) =
        (d.definitions.mapM (c.enumsOnly true).result).map
          (List.filter fun statements => !statements.isEmpty) := by
    refine mapM_filter (fun x _ hx => ?_) fun x hmem hx => ?_
    · rw [c.result_enumsOnly hx, c.result_enumsOnly hx]
    · obtain ⟨y, hy⟩ := exists_of_mapM hall x hmem
      refine ⟨y, hy, ?_⟩
      rw [(c.enumsOnly true).eq_nil_of_onlyEnums rfl hx hy]
      rfl
  rw [Document.enumsAlone, henums, hall]
  rfl

/-- Suppression is filtering. Under `onlyOperationTypes` a document is folded as it is without its
objects, interfaces and unions; but for an input value among the members of an object or interface
the fold fails. What it is folded to under `onlyEnums` is what its enums are folded to alone. No
definition that is left out has any statements, and all others have the same as ever. -/
theorem texts_suppressed :
    ((∀ t ∈ d.types, t.stray? = none) →
      texts (c.operationTypesOnly true) d =
        texts (c.operationTypesOnly false) d.withoutOutputTypes) ∧
    (∀ t ∈ d.types, t.stray? ≠ none →
      ∃ e, texts (c.operationTypesOnly true) d = .error e ∧
        (texts (c.operationTypesOnly false) d.withoutOutputTypes = .error e ∨
          ∃ u ∈ d.types, ∃ name, u.stray? = some name ∧ e = .strayMember name)) ∧
    (∀ l, texts (c.enumsOnly true) d = .ok l → texts (c.enumsOnly false) d.enumsAlone = .ok l) ∧
    ∀ x : Definition,
      (if x.isOutputType then
        ∀ ys, outcome (definition (c.operationTypesOnly true) x) {} = .ok ys → ys = []
      else outcome (definition (c.operationTypesOnly true) x) {} =
        outcome (definition (c.operationTypesOnly false) x) {}) ∧
      if x.isEnum then outcome (definition (c.enumsOnly true) x) {} =
        outcome (definition (c.enumsOnly false) x) {}
      else ∀ ys, outcome (definition (c.enumsOnly true) x) {} = .ok ys → ys = [] := by
  refine ⟨texts_operationTypesOnly c d, fun t => exists_error_operationTypesOnly c d,
    fun l => texts_enumsAlone c d, fun x => ?_⟩
  simp only [outcome_definition _ Ancestors.outsideInput_empty]
  constructor
  · split_ifs with hx
    · intro ys hys
      obtain ⟨t, rfl, -⟩ := result_of_isOutputType c hx
      exact (c.operationTypesOnly true).eq_nil_of_isOutputType rfl hx hys
    · rw [Bool.not_eq_true] at hx
      rw [c.result_operationTypesOnly hx, c.result_operationTypesOnly hx]
  · split_ifs with hx
    · rw [c.result_enumsOnly hx, c.result_enumsOnly hx]
    · rw [Bool.not_eq_true] at hx
      exact fun ys hys => (c.enumsOnly true).eq_nil_of_onlyEnums rfl hx hys

/-- A schema with an input object that is extended. -/
def extendedInput : String :=
  "enum E \x7b A \x7d type Q \x7b f(t: T): E \x7d input T \x7b a: Int \x7d " ++
    "extend input T \x7b b: Int! \x7d"

/-- Without an input value among fields, and with one: arranged for the schema, an object with the
name of the input object has what the extension adds. -/
theorem texts_suppressed_extendedInput :
    ∃ l d symbols, LoadedSchema.ofText extendedInput = .ok l ∧
      Document.parse? "type T \x7b x: Int \x7d" = some d ∧
      SymbolTables.build l.schema {} none = .ok symbols ∧
      ∃ c, c = FoldContext.ofTables l.schema {} symbols Convention.keep.apply ∧
        texts (c.operationTypesOnly true) l.arranged =
          texts (c.operationTypesOnly false) l.arranged.withoutOutputTypes ∧
        (∃ e, texts (c.operationTypesOnly true) (l.schema.arrange (some d)) = .error e) ∧
        texts (c.enumsOnly false) l.arranged.enumsAlone =
          .ok ["export enum E \x7b\n  A = 'A',\n\x7d\n"] := by
  have hloads : (LoadedSchema.ofText extendedInput).toOption.any fun l =>
        (Document.parse? "type T \x7b x: Int \x7d").any fun d =>
          (SymbolTables.build l.schema {} none).toOption.any fun symbols =>
            decide ((∀ t ∈ l.arranged.types, t.stray? = none) ∧
              (∃ t ∈ (l.schema.arrange (some d)).types, t.stray? ≠ none) ∧
              (texts ((FoldContext.ofTables l.schema {} symbols
                Convention.keep.apply).enumsOnly true) l.arranged).toOption =
                  some ["export enum E \x7b\n  A = 'A',\n\x7d\n"]) := by
    decide +kernel
  simp only [Option.any_eq_true, decide_eq_true_eq] at hloads
  obtain ⟨l, hl, d, hd, symbols, hsymbols, hfields, ⟨t, ht, hstray⟩, henums⟩ := hloads
  refine ⟨l, d, symbols, eq_ok_of_toOption hl, hd, eq_ok_of_toOption hsymbols, _, rfl, ?_⟩
  obtain ⟨e, herror, -⟩ := (texts_suppressed (.ofTables l.schema {} symbols Convention.keep.apply)
    (l.schema.arrange (some d))).2.1 t ht hstray
  obtain ⟨hsame, -, henumsAlone, -⟩ := texts_suppressed
    (.ofTables l.schema {} symbols Convention.keep.apply) l.arranged
  exact ⟨hsame hfields, ⟨e, herror⟩, henumsAlone _ (eq_ok_of_toOption henums)⟩

/-- An input value among the fields of an object that is left out is an error, although what is not
left out can be folded. -/
theorem texts_operationTypesOnly_ne :
    ∃ l d symbols, LoadedSchema.ofText extendedInput = .ok l ∧
      Document.parse? "type T \x7b x: Int \x7d" = some d ∧
      SymbolTables.build l.schema {} none = .ok symbols ∧
      let c := FoldContext.ofTables l.schema {} symbols Convention.keep.apply
      let arranged := l.schema.arrange (some d)
      failure? (texts (c.operationTypesOnly true) arranged) = some (.strayMember "b") ∧
        texts (c.operationTypesOnly false) arranged.withoutOutputTypes =
          .ok ["export enum E \x7b\n  A = 'A',\n\x7d\n"] ∧
        texts (c.operationTypesOnly true) arranged ≠
          texts (c.operationTypesOnly false) arranged.withoutOutputTypes := by
  have hloads : (LoadedSchema.ofText extendedInput).toOption.any fun l =>
        (Document.parse? "type T \x7b x: Int \x7d").any fun d =>
          (SymbolTables.build l.schema {} none).toOption.any fun symbols =>
            decide (failure? (texts ((FoldContext.ofTables l.schema {} symbols
                Convention.keep.apply).operationTypesOnly true) (l.schema.arrange (some d))) =
                  some (.strayMember "b") ∧
              (texts ((FoldContext.ofTables l.schema {} symbols
                Convention.keep.apply).operationTypesOnly false)
                  (l.schema.arrange (some d)).withoutOutputTypes).toOption =
                    some ["export enum E \x7b\n  A = 'A',\n\x7d\n"]) := by
    decide +kernel
  simp only [Option.any_eq_true, decide_eq_true_eq] at hloads
  obtain ⟨l, hl, d, hd, symbols, hsymbols, hfails, hothers⟩ := hloads
  refine ⟨l, d, symbols, eq_ok_of_toOption hl, hd, eq_ok_of_toOption hsymbols, hfails,
    eq_ok_of_toOption hothers, fun heq => ?_⟩
  rw [heq, eq_ok_of_toOption hothers] at hfails
  cases hfails

end Fold

end SdlTypes
