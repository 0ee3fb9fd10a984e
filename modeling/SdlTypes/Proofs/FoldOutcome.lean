import Mathlib.Tactic.SplitIfs
import SdlTypes.Module
import SdlTypes.Proofs.Results
import SdlTypes.Proofs.Steps

/-!
# What the fold gives

A step of the fold reads the stack of ancestors and puts it back as it was (`Fold.Balanced`), so
its result is a function of the stack that it begins with (`Fold.outcome`). This module computes
that function for every step: what a reference, an argument, a field and a definition become,
and with which error they fail. Further statements about the fold start from these equations and
do not look at the stack again.

A definition stands in no other, so `outcome_object` and its neighbours speak of stacks that are
outside of input objects and input values; `outcome_document` is the fold of a whole document,
`Module.generate_eq` a whole run.
-/

namespace SdlTypes

open Sdl

namespace Fold

variable {α β : Type}

/-! ## Steps -/

/-- The result of a step that begins with a stack. -/
def outcome (step : Fold α) (a : Ancestors) : Except FoldError α :=
  (step.run.run a).1

/-- Whether a step leaves the stack as it was, also when it fails. -/
def Balanced (step : Fold α) : Prop :=
  ∀ a, (step.run.run a).2 = a

theorem Balanced.run_eq {step : Fold α} (h : Balanced step) (a : Ancestors) :
    step.run.run a = (outcome step a, a) :=
  Prod.ext rfl (h a)

@[simp] theorem outcome_pure (x : α) (a : Ancestors) : outcome (pure x) a = .ok x := rfl

theorem balanced_pure (x : α) : Balanced (pure x) := fun _ => rfl

@[simp] theorem outcome_throw (e : FoldError) (a : Ancestors) :
    outcome (throw e : Fold α) a = .error e := rfl

theorem balanced_throw (e : FoldError) : Balanced (throw e : Fold α) := fun _ => rfl

@[simp] theorem outcome_ask (question : Ancestors → α) (a : Ancestors) :
    outcome (ask question) a = .ok (question a) := rfl

theorem balanced_ask (question : Ancestors → α) : Balanced (ask question) := fun _ => rfl

@[simp] theorem outcome_build (result : Except ConstructionError α) (a : Ancestors) :
    outcome (build result) a = result.mapError .construction := rfl

theorem balanced_build (result : Except ConstructionError α) : Balanced (build result) :=
  fun _ => rfl

/-- A sequence runs its second part with the stack that it began with. -/
theorem run_bind {x : Fold α} (hx : Balanced x) (f : α → Fold β) (a : Ancestors) :
    (x >>= f).run.run a =
      match outcome x a with
      | .ok v => (f v).run.run a
      | .error e => (.error e, a) := by
  rw [SdlTypes.run_bind, hx.run_eq]
  cases outcome x a <;> rfl

theorem outcome_bind {x : Fold α} (hx : Balanced x) (f : α → Fold β) (a : Ancestors) :
    outcome (x >>= f) a = (outcome x a).bind fun v => outcome (f v) a := by
  unfold outcome
  rw [run_bind hx, outcome]
  cases (x.run.run a).1 <;> rfl

theorem Balanced.bind {x : Fold α} (hx : Balanced x) {f : α → Fold β}
    (hf : ∀ v, Balanced (f v)) : Balanced (x >>= f) := by
  intro a
  rw [run_bind hx]
  cases outcome x a with
  | error e => rfl
  | ok v => exact hf v a

/-- Inside a frame a step runs with that frame on the stack. -/
@[simp] theorem outcome_within (frame : Frame) (step : Fold α) (a : Ancestors) :
    outcome (within frame step) a = outcome step (a.enter frame) := rfl

theorem Balanced.within {step : Fold α} (h : Balanced step) (frame : Frame) :
    Balanced (within frame step) := fun a => by
  change Ancestors.leave (step.run.run (a.enter frame)).2 = a
  rw [h, Ancestors.leave_enter]

theorem balanced_mapM {f : β → Fold α} (h : ∀ x, Balanced (f x)) (l : List β) :
    Balanced (l.mapM f) := by
  induction l with
  | nil => exact balanced_pure []
  | cons x l ih =>
    rw [List.mapM_cons]
    exact (h x).bind fun y => ih.bind fun ys => balanced_pure _

/-- Steps one after another all begin with the same stack. -/
theorem outcome_mapM {f : β → Fold α} (h : ∀ x, Balanced (f x)) (l : List β) (a : Ancestors) :
    outcome (l.mapM f) a = l.mapM fun x => outcome (f x) a := by
  induction l with
  | nil => rfl
  | cons x l ih =>
    rw [List.mapM_cons, outcome_bind (h x), List.mapM_cons]
    congr 1
    funext y
    rw [outcome_bind (balanced_mapM h l), ih]
    rfl

end Fold

/-! ## Types -/

/-- The fragment of a reference, given what the name inside it is written as. -/
def Sdl.TypeRef.fragment (input : Bool) (leaf : String → String) :
    TypeRef → SdlTypes.Fragment
  | .named name required => Fold.markRequired required (.nullable (leaf name) input)
  | .list element required =>
    Fold.markRequired required (.listOf (element.fragment input leaf) input)

namespace Ancestors

/-- A place outside of all input objects and input values. -/
structure OutsideInput (a : Ancestors) : Prop where
  input : a.inInput = false
  value : a.has .inputValue = false

theorem outsideInput_empty : OutsideInput {} := ⟨rfl, rfl⟩

theorem OutsideInput.enter {a : Ancestors} (h : a.OutsideInput) {frame : Frame}
    (hi : frame.scope ≠ .inputObject) (hv : frame.scope ≠ .inputValue) :
    (a.enter frame).OutsideInput where
  input := by
    have := h.input
    simp only [inInput, has, Ancestors.enter, List.any_cons, Bool.or_eq_false_iff] at this ⊢
    exact ⟨by simpa using hi, this⟩
  value := by
    have := h.value
    simp only [has, Ancestors.enter, List.any_cons, Bool.or_eq_false_iff] at this ⊢
    exact ⟨by simpa using hv, this⟩

/-- An input value is in an input object if its surroundings are. -/
@[simp] theorem inInput_enter_inputValue (a : Ancestors) (name : String) :
    (a.enter ⟨.inputValue, name⟩).inInput = a.inInput := rfl

@[simp] theorem has_enter_inputValue (a : Ancestors) (name : String) :
    (a.enter ⟨.inputValue, name⟩).has .inputValue = true := rfl

/-- Outside of input objects none of them is the nearest definition. -/
theorem OutsideInput.nearestDefinition_ne {a : Ancestors} (h : a.OutsideInput) (name : String) :
    a.nearestDefinition ≠ some ⟨.inputObject, name⟩ := by
  intro hn
  have hmem : (⟨.inputObject, name⟩ : Frame) ∈ a.frames := List.mem_of_find?_eq_some hn
  have hin := h.input
  rw [inInput, has, List.any_eq_false] at hin
  exact hin _ hmem rfl

end Ancestors

namespace FoldContext

variable (c : FoldContext)

/-- The context of a run with other options but the same tables. -/
def withOptions (o : Options) : FoldContext :=
  { c with resolver := { c.resolver with options := o } }

/-- What the named type of a field is written as. -/
def fieldLeaf (name : String) : String :=
  if c.options.wrapFieldDefinitions then "FieldWrapper<" ++ c.resolver.resolve name ++ ">"
  else c.resolver.resolve name

/-- What an argument, or a field of an input object, becomes. -/
def inputProperty (input : Bool) (v : InputValueDef) : Property where
  name := v.name
  type := v.type.fragment input c.resolver.resolve
  optional := Fold.isOptional c.options.avoidOptionals v
  required := v.type.required
  comment := Comment.ofMember 1 v.description v.directives
  override := Fold.directiveOverride c v.directives

/-- What a field of an object or interface becomes. -/
def fieldProperty (f : FieldDef) : FieldProperty where
  name := f.name
  type := f.type.fragment false c.fieldLeaf
  optional := !c.options.avoidOptionals.field && !f.type.required
  required := f.type.required
  comment := Comment.ofMember 1 f.description f.directives
  override :=
    if c.options.wrapEntireFieldDefinitions then
      some ("EntireFieldWrapper<" ++ (f.type.fragment false c.fieldLeaf).render ++ ">")
    else none
  arguments := f.arguments.map (c.inputProperty false)

/-- Whether a field of the input object `typeName` is refused while it is folded. -/
def verdict (typeName : String) (p : Property) : Except FoldError Unit :=
  if Schema.isOneOf (c.schema.find? typeName) [] then
    (OneOf.checkNullable typeName p).mapError .construction
  else .ok ()

/-- What a member of an object or interface becomes. -/
def fieldResult : Member → Except FoldError FieldProperty
  | .field f => .ok (c.fieldProperty f)
  | .input v => .error (.strayMember v.name)

/-- What a member of the input object `typeName` becomes. -/
def inputResult (typeName : String) : Member → Except FoldError Property
  | .input v => (c.verdict typeName (c.inputProperty true v)).map fun _ => c.inputProperty true v
  | .field f => .error (.strayMember f.name)

end FoldContext

namespace Fold

variable (c : FoldContext)

theorem balanced_namedType (name : String) : Balanced (namedType c name) :=
  (balanced_ask _).bind fun _ => (balanced_ask _).bind fun _ => by
    split_ifs <;> exact balanced_pure _

theorem balanced_typeRef : ∀ r : TypeRef, Balanced (typeRef c r)
  | .named name _ => (balanced_ask _).bind fun _ =>
    (balanced_namedType c name).bind fun _ => balanced_pure _
  | .list element _ => (balanced_ask _).bind fun _ =>
    (balanced_typeRef element).bind fun _ => balanced_pure _

/-- Inside an input value names are written as they are resolved. -/
theorem outcome_namedType_of_has {a : Ancestors} (h : a.has .inputValue = true) (name : String) :
    outcome (namedType c name) a = .ok (c.resolver.resolve name) := by
  simp only [namedType, outcome_bind (balanced_ask _), outcome_ask, Except.bind, h]
  rw [if_neg (by simp)]
  rfl

/-- Outside of input objects and input values names may get a wrapper. -/
theorem outcome_namedType_of_outside {a : Ancestors} (h : a.OutsideInput) (name : String) :
    outcome (namedType c name) a = .ok (c.fieldLeaf name) := by
  simp only [namedType, outcome_bind (balanced_ask _), outcome_ask, Except.bind, h.input, h.value,
    Bool.not_false, Bool.and_true, FoldContext.fieldLeaf]
  split_ifs <;> rfl

/-- A reference becomes the fragment of what the name inside it is written as. -/
theorem outcome_typeRef {a : Ancestors} {leaf : String → String}
    (h : ∀ name, outcome (namedType c name) a = .ok (leaf name)) :
    ∀ r : TypeRef, outcome (typeRef c r) a = .ok (r.fragment a.inInput leaf)
  | .named name required => by
    rw [typeRef, outcome_bind (balanced_ask _), outcome_ask, Except.bind,
      outcome_bind (balanced_namedType c name), h]
    rfl
  | .list element required => by
    rw [typeRef, outcome_bind (balanced_ask _), outcome_ask, Except.bind,
      outcome_bind (balanced_typeRef c element), outcome_typeRef h element]
    rfl

/-! ## Members -/

theorem balanced_checkOneOf (p : Property) : Balanced (checkOneOf c p) :=
  (balanced_ask _).bind fun _ => by
    split
    · split_ifs
      · exact balanced_build _
      · exact balanced_pure _
    · exact balanced_pure _

theorem outcome_checkOneOf_of_outside {a : Ancestors} (h : a.OutsideInput) (p : Property) :
    outcome (checkOneOf c p) a = .ok () := by
  rw [checkOneOf, outcome_bind (balanced_ask _), outcome_ask, Except.bind]
  split
  · next typeName hn => exact absurd hn (h.nearestDefinition_ne typeName)
  · rfl

theorem outcome_checkOneOf_of_inputObject (a : Ancestors) (typeName : String) (p : Property) :
    outcome (checkOneOf c p) (a.enter ⟨.inputObject, typeName⟩) = c.verdict typeName p := by
  have hn : (a.enter ⟨.inputObject, typeName⟩).nearestDefinition = some ⟨.inputObject, typeName⟩ :=
    rfl
  rw [checkOneOf, outcome_bind (balanced_ask _), outcome_ask, Except.bind, hn,
    FoldContext.verdict]
  dsimp only
  split_ifs <;> rfl

theorem balanced_inputValue (v : InputValueDef) : Balanced (inputValue c v) :=
  ((balanced_typeRef c _).within _).bind fun _ =>
    (balanced_checkOneOf c _).bind fun _ => balanced_pure _

/-- An input value becomes its property unless it is refused at its place. -/
theorem outcome_inputValue (v : InputValueDef) (a : Ancestors) :
    outcome (inputValue c v) a =
      (outcome (checkOneOf c (c.inputProperty a.inInput v)) a).map fun _ =>
        c.inputProperty a.inInput v := by
  rw [inputValue, outcome_bind ((balanced_typeRef c _).within _), outcome_within,
    outcome_typeRef c (outcome_namedType_of_has c (Ancestors.has_enter_inputValue a v.name)),
    Except.bind, outcome_bind (balanced_checkOneOf c _)]
  rfl

theorem balanced_field (f : FieldDef) : Balanced (field c f) :=
  (((balanced_mapM (balanced_inputValue c) _).bind fun _ =>
    (balanced_typeRef c _).bind fun _ => balanced_pure _).within _).bind fun _ => balanced_pure _

/-- A field becomes its property; its arguments are never refused. -/
theorem outcome_field {a : Ancestors} (h : a.OutsideInput) (f : FieldDef) :
    outcome (field c f) a = .ok (c.fieldProperty f) := by
  have hin : (a.enter ⟨.field, f.name⟩).OutsideInput := h.enter (by simp) (by simp)
  have hargs : outcome (f.arguments.mapM (inputValue c)) (a.enter ⟨.field, f.name⟩) =
      .ok (f.arguments.map (c.inputProperty false)) := by
    rw [outcome_mapM (balanced_inputValue c)]
    simp only [outcome_inputValue, outcome_checkOneOf_of_outside c hin, hin.input, Except.map]
    exact List.mapM_pure
  have htype := outcome_typeRef c (outcome_namedType_of_outside c hin) f.type
  rw [hin.input] at htype
  have hparts := (balanced_mapM (balanced_inputValue c) f.arguments).bind
    (f := fun arguments => do return (arguments, ← typeRef c f.type))
    fun _ => (balanced_typeRef c _).bind fun _ => balanced_pure _
  rw [field, outcome_bind (hparts.within _), outcome_within,
    outcome_bind (balanced_mapM (balanced_inputValue c) _), hargs, Except.bind,
    outcome_bind (balanced_typeRef c _), htype]
  rfl

theorem balanced_fieldMember (m : Member) : Balanced (fieldMember c m) := by
  cases m with
  | field f => exact balanced_field c f
  | input v => exact balanced_throw _

theorem outcome_fieldMember {a : Ancestors} (h : a.OutsideInput) (m : Member) :
    outcome (fieldMember c m) a = c.fieldResult m := by
  cases m with
  | field f => exact outcome_field c h f
  | input v => rfl

theorem balanced_inputMember (m : Member) : Balanced (inputMember c m) := by
  cases m with
  | input v => exact balanced_inputValue c v
  | field f => exact balanced_throw _

theorem outcome_inputMember (a : Ancestors) (typeName : String) (m : Member) :
    outcome (inputMember c m) (a.enter ⟨.inputObject, typeName⟩) = c.inputResult typeName m := by
  cases m with
  | input v =>
    have hin : (a.enter ⟨.inputObject, typeName⟩).inInput = true := rfl
    rw [inputMember, outcome_inputValue, outcome_checkOneOf_of_inputObject, hin]
    rfl
  | field f => rfl

end Fold

/-! ## Definitions -/

/-- What is in the declarations for arguments, taken together. A field without arguments, which has
no declaration, adds nothing to it. -/
theorem Arguments.flatMap_declarations {α : Type} {r : Resolver}
    (honly : r.options.onlyEnums = false) (typeName : String) {k : Declaration → List α}
    {l : Property → α} (h : ∀ f, k (declaration r typeName f) = f.arguments.map l)
    (fields : List FieldProperty) :
    (declarations r typeName fields).flatMap k = fields.flatMap fun f => f.arguments.map l := by
  rw [declarations, honly, if_neg Bool.false_ne_true, List.flatMap_map]
  induction fields with
  | nil => rfl
  | cons f fields ih =>
    rw [List.flatMap_cons, ← ih]
    cases hargs : f.arguments with
    | nil => rw [List.filter_cons_of_neg (by simp [hargs]), List.map_nil, List.nil_append]
    | cons a rest =>
      rw [List.filter_cons_of_pos (by simp [hargs]), List.flatMap_cons, h, hargs]

namespace FoldContext

variable (c : FoldContext)

/-- The statements of an object. -/
def objectStatements (d : TypeDef) (fields : List FieldProperty) : List Statement :=
  if c.options.suppressesOutput then []
  else Fold.withArguments c d .type (Fold.typenameLine c.options d.name) fields

/-- The statements of an interface. -/
def interfaceStatements (d : TypeDef) (fields : List FieldProperty) : List Statement :=
  if c.options.suppressesOutput then []
  else Fold.withArguments c d (if d.body.interfaces.isEmpty then .interface else .type) [] fields

/-- The members of the union type for a union. -/
def unionMembers (d : TypeDef) : List UnionMember :=
  (d.body.types.map fun name => .reference (c.resolver.resolveUnionMember name)) ++
    if c.options.futureProofUnions then [.other c.options.immutableTypes] else []

/-- The statements of a union. -/
def unionStatements (d : TypeDef) : List Statement :=
  if c.options.suppressesOutput then []
  else
    [.declare (Fold.declaration c d .type (c.resolver.convertName d.name)
      (.union (c.unionMembers d)))]

/-- The body for the fields of an input object. -/
def inputBody (d : TypeDef) (fields : List Property) : Except FoldError Body :=
  if Schema.isOneOf (c.schema.find? d.name) d.directives then
    ((OneOf.arms d.name fields c.options.immutableTypes).map Body.oneOf).mapError .construction
  else .ok (.properties [] (fields.map (Fold.memberLine c)))

/-- The statements of an input object. -/
def inputStatements (d : TypeDef) (fields : List Property) : Except FoldError (List Statement) :=
  if c.options.onlyEnums then .ok []
  else (c.inputBody d fields).map fun body =>
    [.declare (Fold.declaration c d .type (c.resolver.convertName d.name) body)]

/-- The constants of an enum. -/
def enumerators (d : TypeDef) : List Enumerator :=
  d.body.values.map (Fold.enumerator c (c.symbols.enums.find? d.name))

/-- The declaration of an enum. -/
def enumDeclaration (d : TypeDef) : Declaration :=
  if c.options.enumsAsTypes then
    Fold.declaration c d .type (c.resolver.enumName d.name) (.literals (c.enumerators d))
  else Fold.declaration c d .enum (c.resolver.enumName d.name) (.enumerators (c.enumerators d))

/-- The statements of an enum. -/
def enumStatements (d : TypeDef) : List Statement :=
  match (c.symbols.enums.find? d.name).filter EnumSymbol.isExternal with
  | some s =>
    if c.options.noExport then [] else [.reexport s.identifier c.options.useTypeImports]
  | none => [.declare (c.enumDeclaration d)]

/-- What a type definition becomes. -/
def typeResult (d : TypeDef) : Except FoldError (List Statement) :=
  match d.kind with
  | .object => (d.body.members.mapM c.fieldResult).map (c.objectStatements d)
  | .interface => (d.body.members.mapM c.fieldResult).map (c.interfaceStatements d)
  | .union => .ok (c.unionStatements d)
  | .enum => .ok (c.enumStatements d)
  | .input => (d.body.members.mapM (c.inputResult d.name)).bind (c.inputStatements d)
  | .scalar => .ok []

/-- In an input object of which one field is set every field is checked. -/
theorem verdict_of_isOneOf {typeName : String}
    (h : Schema.isOneOf (c.schema.find? typeName) [] = true) :
    c.verdict typeName = fun p => (OneOf.checkNullable typeName p).mapError .construction :=
  funext fun _ => if_pos h

/-- In any other input object no field is refused. -/
theorem verdict_of_not_isOneOf {typeName : String}
    (h : Schema.isOneOf (c.schema.find? typeName) [] = false) :
    c.verdict typeName = fun _ => .ok () :=
  funext fun _ => if_neg (by simp [h])

/-- The check of the fields of an input object stops at the first one that may not be null. -/
theorem forM_checkNullable (typeName : String) (vs : List InputValueDef) :
    (vs.map (c.inputProperty true)).forM (OneOf.checkNullable typeName) =
      match vs.find? fun v => v.type.required with
      | some v => .error ⟨typeName, v.name⟩
      | none => .ok () := by
  induction vs with
  | nil => rfl
  | cons v vs ih =>
    have hcheck : OneOf.checkNullable typeName (c.inputProperty true v) =
        if v.type.required then .error ⟨typeName, v.name⟩ else .ok () := rfl
    rw [List.map_cons, forM_cons_eq_bind, ih, List.find?_cons, hcheck]
    cases v.type.required <;> rfl

/-- Fields become their properties; none of them is refused. -/
theorem mapM_fieldResult (fs : List FieldDef) :
    (fs.map Member.field).mapM c.fieldResult = .ok (fs.map c.fieldProperty) := by
  rw [List.mapM_map]
  exact List.mapM_pure

/-- Input values become their properties if none of them is refused. -/
theorem mapM_inputResult (typeName : String) (vs : List InputValueDef) :
    (vs.map Member.input).mapM (c.inputResult typeName) =
      ((vs.map (c.inputProperty true)).forM (c.verdict typeName)).map fun _ =>
        vs.map (c.inputProperty true) := by
  induction vs with
  | nil => rfl
  | cons v vs ih =>
    rw [List.map_cons, List.mapM_cons, ih, List.map_cons, forM_cons_eq_bind, inputResult]
    cases c.verdict typeName (c.inputProperty true v) with
    | error e => rfl
    | ok => cases (vs.map (c.inputProperty true)).forM (c.verdict typeName) <;> rfl

/-- What an input object becomes whose members are input values. -/
theorem typeResult_of_inputs {d : TypeDef} {vs : List InputValueDef} (hk : d.kind = .input)
    (hvs : d.body.members = vs.map Member.input) :
    c.typeResult d = ((vs.map (c.inputProperty true)).forM (c.verdict d.name)).bind fun _ =>
      c.inputStatements d (vs.map (c.inputProperty true)) := by
  rw [typeResult, hk, hvs]
  dsimp only
  rw [mapM_inputResult]
  cases (vs.map (c.inputProperty true)).forM (c.verdict d.name) <;> rfl

/-! ### What results come from -/

variable {c}

theorem exists_of_fieldResult {m : Member} {p : FieldProperty} (h : c.fieldResult m = .ok p) :
    ∃ f, m = .field f ∧ p = c.fieldProperty f := by
  cases m with
  | field f => exact ⟨f, rfl, (Except.ok.inj h).symm⟩
  | input v => cases h

theorem exists_of_inputResult {typeName : String} {m : Member} {p : Property}
    (h : c.inputResult typeName m = .ok p) : ∃ v, m = .input v ∧ p = c.inputProperty true v := by
  cases m with
  | field f => cases h
  | input v =>
    obtain ⟨-, -, rfl⟩ := exists_of_map h
    exact ⟨v, rfl, rfl⟩

/-- The members of an object or interface that is folded are fields. -/
theorem exists_fields_of_mapM {ms : List Member} {fields : List FieldProperty}
    (h : ms.mapM c.fieldResult = .ok fields) :
    ∃ fs : List FieldDef, ms = fs.map Member.field ∧ fields = fs.map c.fieldProperty := by
  have hpairs := forall₂_of_mapM h
  clear h
  induction hpairs with
  | nil => exact ⟨[], rfl, rfl⟩
  | cons hx _ ih =>
    obtain ⟨f, rfl, rfl⟩ := exists_of_fieldResult hx
    obtain ⟨fs, rfl, rfl⟩ := ih
    exact ⟨f :: fs, rfl, rfl⟩

/-- The members of an input object that is folded are input fields. -/
theorem exists_inputs_of_mapM {typeName : String} {ms : List Member} {ps : List Property}
    (h : ms.mapM (c.inputResult typeName) = .ok ps) :
    ∃ vs : List InputValueDef, ms = vs.map Member.input ∧ ps = vs.map (c.inputProperty true) := by
  have hpairs := forall₂_of_mapM h
  clear h
  induction hpairs with
  | nil => exact ⟨[], rfl, rfl⟩
  | cons hx _ ih =>
    obtain ⟨v, rfl, rfl⟩ := exists_of_inputResult hx
    obtain ⟨vs, rfl, rfl⟩ := ih
    exact ⟨v :: vs, rfl, rfl⟩

/-- The body of an input object is an arm for each field, or a line for each. -/
theorem eq_of_inputBody {d : TypeDef} {ps : List Property} {body : Body}
    (h : c.inputBody d ps = .ok body) :
    body = .oneOf (ps.map fun p => OneOf.arm p ps c.options.immutableTypes) ∨
      body = .properties [] (ps.map (Fold.memberLine c)) := by
  unfold inputBody at h
  split_ifs at h
  · obtain ⟨arms, harms, rfl⟩ := exists_of_map (eq_ok_of_mapError h)
    obtain ⟨-, -, harms⟩ := exists_of_bind harms
    cases harms
    exact .inl rfl
  · cases h
    exact .inr rfl

/-- The declaration of an input object with a body. -/
def inputDeclaration (c : FoldContext) (d : TypeDef) (body : Body) : Declaration :=
  Fold.declaration c d .type (c.resolver.convertName d.name) body

/-- What a type definition may become, kind by kind. -/
inductive Becomes (c : FoldContext) (d : TypeDef) : List Statement → Prop
  | object {fs : List FieldDef} (hk : d.kind = .object)
    (hfs : d.body.members = fs.map Member.field) :
    Becomes c d (c.objectStatements d (fs.map c.fieldProperty))
  | interface {fs : List FieldDef} (hk : d.kind = .interface)
    (hfs : d.body.members = fs.map Member.field) :
    Becomes c d (c.interfaceStatements d (fs.map c.fieldProperty))
  | union (hk : d.kind = .union) : Becomes c d (c.unionStatements d)
  | enum (hk : d.kind = .enum) : Becomes c d (c.enumStatements d)
  | input {vs : List InputValueDef} {body : Body} (hk : d.kind = .input)
    (hvs : d.body.members = vs.map Member.input)
    (hbody : c.inputBody d (vs.map (c.inputProperty true)) = .ok body) :
    Becomes c d [.declare (c.inputDeclaration d body)]
  | hidden (hk : d.kind = .scalar ∨ d.kind = .input ∧ c.options.onlyEnums = true) : Becomes c d []

/-- A type definition that is folded becomes one of these. -/
theorem becomes_of_typeResult {d : TypeDef} {statements : List Statement}
    (h : c.typeResult d = .ok statements) : c.Becomes d statements := by
  unfold typeResult at h
  cases hk : d.kind with
  | object =>
    rw [hk] at h
    obtain ⟨fields, hmap, rfl⟩ := exists_of_map h
    obtain ⟨fs, hfs, rfl⟩ := exists_fields_of_mapM hmap
    exact .object hk hfs
  | interface =>
    rw [hk] at h
    obtain ⟨fields, hmap, rfl⟩ := exists_of_map h
    obtain ⟨fs, hfs, rfl⟩ := exists_fields_of_mapM hmap
    exact .interface hk hfs
  | union =>
    rw [hk] at h
    cases h
    exact .union hk
  | enum =>
    rw [hk] at h
    cases h
    exact .enum hk
  | input =>
    rw [hk] at h
    obtain ⟨ps, hmap, h⟩ := exists_of_bind h
    obtain ⟨vs, hvs, rfl⟩ := exists_inputs_of_mapM hmap
    unfold inputStatements at h
    split_ifs at h with ho
    · cases h
      exact .hidden (.inr ⟨hk, ho⟩)
    · obtain ⟨body, hbody, rfl⟩ := exists_of_map h
      exact .input hk hvs hbody
  | scalar =>
    rw [hk] at h
    cases h
    exact .hidden (.inl hk)

variable (c)

/-- What a definition becomes. -/
def result : Definition → Except FoldError (List Statement)
  | .type d => c.typeResult d
  | _ => .ok []

end FoldContext

namespace Fold

variable (c : FoldContext)

theorem balanced_object (d : TypeDef) : Balanced (object c d) :=
  ((balanced_mapM (balanced_fieldMember c) _).within _).bind fun _ => by
    split_ifs <;> exact balanced_pure _

theorem outcome_object {a : Ancestors} (h : a.OutsideInput) (d : TypeDef) :
    outcome (object c d) a = (d.body.members.mapM c.fieldResult).map (c.objectStatements d) := by
  have hin : (a.enter ⟨.object, d.name⟩).OutsideInput := h.enter (by simp) (by simp)
  rw [object, outcome_bind ((balanced_mapM (balanced_fieldMember c) _).within _), outcome_within,
    outcome_mapM (balanced_fieldMember c)]
  simp only [outcome_fieldMember c hin]
  cases d.body.members.mapM c.fieldResult with
  | error e => rfl
  | ok fields =>
    rw [Except.bind, Except.map, FoldContext.objectStatements]
    split_ifs <;> rfl

theorem balanced_interface (d : TypeDef) : Balanced (interface c d) :=
  ((balanced_mapM (balanced_fieldMember c) _).within _).bind fun _ => by
    split_ifs <;> exact balanced_pure _

theorem outcome_interface {a : Ancestors} (h : a.OutsideInput) (d : TypeDef) :
    outcome (interface c d) a =
      (d.body.members.mapM c.fieldResult).map (c.interfaceStatements d) := by
  have hin : (a.enter ⟨.interface, d.name⟩).OutsideInput := h.enter (by simp) (by simp)
  rw [interface, outcome_bind ((balanced_mapM (balanced_fieldMember c) _).within _),
    outcome_within, outcome_mapM (balanced_fieldMember c)]
  simp only [outcome_fieldMember c hin]
  cases d.body.members.mapM c.fieldResult with
  | error e => rfl
  | ok fields =>
    rw [Except.bind, Except.map, FoldContext.interfaceStatements]
    split_ifs <;> rfl

theorem balanced_union (d : TypeDef) : Balanced (union c d) :=
  ((balanced_pure _).within _).bind fun _ => by split_ifs <;> exact balanced_pure _

theorem outcome_union (d : TypeDef) (a : Ancestors) :
    outcome (union c d) a = .ok (c.unionStatements d) := by
  rw [union, outcome_bind ((balanced_pure _).within _), outcome_within, outcome_pure, Except.bind,
    FoldContext.unionStatements, FoldContext.unionMembers]
  split_ifs <;> rfl

theorem balanced_input (d : TypeDef) : Balanced (input c d) :=
  ((balanced_mapM (balanced_inputMember c) _).within _).bind fun fields => by
    dsimp only
    split_ifs
    · exact balanced_pure _
    · rw [map_eq_pure_bind]
      exact ((balanced_build _).bind fun _ => balanced_pure _).bind fun _ => balanced_pure _
    · exact (balanced_pure _).bind fun _ => balanced_pure _

theorem outcome_input (d : TypeDef) (a : Ancestors) :
    outcome (input c d) a =
      (d.body.members.mapM (c.inputResult d.name)).bind (c.inputStatements d) := by
  rw [input, outcome_bind ((balanced_mapM (balanced_inputMember c) _).within _), outcome_within,
    outcome_mapM (balanced_inputMember c)]
  simp only [outcome_inputMember]
  congr 1
  funext fields
  rw [FoldContext.inputStatements, FoldContext.inputBody]
  split_ifs
  · rfl
  · rw [map_eq_pure_bind, outcome_bind ((balanced_build _).bind fun _ => balanced_pure _),
      outcome_bind (balanced_build _), outcome_build]
    cases OneOf.arms d.name fields c.options.immutableTypes <;> rfl
  · rfl

theorem balanced_enum (d : TypeDef) : Balanced (enum c d) :=
  ((balanced_pure _).within _).bind fun _ => by
    dsimp only
    cases (c.symbols.enums.find? d.name).filter EnumSymbol.isExternal <;> dsimp only <;>
      split_ifs <;> exact balanced_pure _

theorem outcome_enum (d : TypeDef) (a : Ancestors) :
    outcome (enum c d) a = .ok (c.enumStatements d) := by
  rw [enum, outcome_bind ((balanced_pure _).within _), outcome_within, outcome_pure, Except.bind,
    FoldContext.enumStatements, FoldContext.enumDeclaration]
  cases (c.symbols.enums.find? d.name).filter EnumSymbol.isExternal <;> dsimp only <;>
    split_ifs <;> rfl

theorem balanced_definition (d : Definition) : Balanced (definition c d) := by
  cases d with
  | type d =>
    simp only [definition]
    split
    · exact balanced_object c d
    · exact balanced_interface c d
    · exact balanced_union c d
    · exact balanced_enum c d
    · exact balanced_input c d
    · exact balanced_pure _
  | _ => exact balanced_pure _

theorem outcome_definition {a : Ancestors} (h : a.OutsideInput) (d : Definition) :
    outcome (definition c d) a = c.result d := by
  cases d with
  | type d =>
    simp only [definition, FoldContext.result, FoldContext.typeResult]
    cases d.kind with
    | object => exact outcome_object c h d
    | interface => exact outcome_interface c h d
    | union => exact outcome_union c d a
    | enum => exact outcome_enum c d a
    | input => exact outcome_input c d a
    | scalar => rfl
  | _ => rfl

/-- A document becomes what its definitions become one by one. -/
theorem outcome_document (d : Document) :
    outcome (document c d) {} = d.definitions.mapM c.result := by
  rw [document, outcome_mapM (balanced_definition c)]
  simp only [outcome_definition c Ancestors.outsideInput_empty]

end Fold

/-- The texts among those of some definitions that are not empty. -/
def nonemptyTexts (definitions : List (List Statement)) : List String :=
  (definitions.map statementsText).filter (· ≠ "")

/-- The texts that a document is folded to. -/
def Fold.texts (c : FoldContext) (d : Document) : Except FoldError (List String) :=
  (outcome (document c d) {}).map nonemptyTexts

/-- What a run gives: the module of what the definitions become, or the first error among naming
convention, tables and definitions. -/
theorem Module.generate_eq (s : Schema) (o : Options) (document : Option Document)
    (convert : Option (String → String)) (further : List String) :
    generate s o document convert further = (do
      let convert ← (SymbolTables.conversion o convert).mapError fun e => .tables (.config e)
      let symbols ← (SymbolTables.build s o (some convert)).mapError .tables
      let definitions ← ((document.getD (s.arrange none)).definitions.mapM
        (FoldContext.ofTables s o symbols convert).result).mapError .fold
      return assemble s o symbols definitions further) := by
  simp only [← Fold.outcome_document]
  rfl

/-- A run succeeds if naming convention, tables and definitions do, and gives the module that is
assembled from them. -/
theorem Module.generate_eq_ok_iff {s : Schema} {o : Options} {document : Option Document}
    {convert : Option (String → String)} {further : List String} {m : Module} :
    generate s o document convert further = .ok m ↔ ∃ f symbols definitions,
      SymbolTables.conversion o convert = .ok f ∧
      SymbolTables.build s o (some f) = .ok symbols ∧
      (document.getD (s.arrange none)).definitions.mapM
        (FoldContext.ofTables s o symbols f).result = .ok definitions ∧
      m = assemble s o symbols definitions further := by
  rw [generate_eq]
  constructor
  · intro h
    obtain ⟨f, hf, h⟩ := exists_of_bind h
    obtain ⟨symbols, hsymbols, h⟩ := exists_of_bind h
    obtain ⟨definitions, hdefinitions, h⟩ := exists_of_bind h
    exact ⟨f, symbols, definitions, eq_ok_of_mapError hf, eq_ok_of_mapError hsymbols,
      eq_ok_of_mapError hdefinitions, (Except.ok.inj h).symm⟩
  · rintro ⟨f, symbols, definitions, hf, hsymbols, hdefinitions, rfl⟩
    simp only [hf, hsymbols, hdefinitions, Except.mapError, Except.bind, bind, pure, Except.pure]

/-- Two runs that agree on the naming convention and on the tables are alike if their definitions
are, one by one. -/
theorem Module.alike_generate
    {Q : SymbolTables → Definition → List Statement → List Statement → Prop}
    {R : Module → Module → Prop} {s : Schema} {o o' : Options} {document : Option Document}
    {convert : Option (String → String)} {further : List String}
    (hconversion : SymbolTables.conversion o' convert = SymbolTables.conversion o convert)
    (hbuild : ∀ f, SymbolTables.build s o' (some f) = SymbolTables.build s o (some f))
    (hresult : ∀ symbols f x, Alike (Q symbols x) ((FoldContext.ofTables s o symbols f).result x)
      ((FoldContext.ofTables s o' symbols f).result x))
    (hassemble : ∀ f symbols xs ys, SymbolTables.conversion o convert = .ok f →
      SymbolTables.build s o (some f) = .ok symbols →
      Abreast (Q symbols) (document.getD (s.arrange none)).definitions xs ys →
      R (assemble s o symbols xs further) (assemble s o' symbols ys further)) :
    Alike R (generate s o document convert further) (generate s o' document convert further) := by
  rw [generate_eq, generate_eq, hconversion]
  refine .of_bind fun f hf => ?_
  rw [hbuild]
  refine .of_bind fun symbols hsymbols => ?_
  refine ((Alike.mapM fun x _ => hresult symbols f x).mapError _).bind fun xs ys h => .ok ?_
  exact hassemble f symbols xs ys (eq_ok_of_mapError hf) (eq_ok_of_mapError hsymbols) h

end SdlTypes
