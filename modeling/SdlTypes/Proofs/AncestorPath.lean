import SdlTypes.Proofs.FoldOutcome

/-!
# Ancestors are syntax

The fold keeps a stack of frames and asks it where it is. `Watched` is a step of the fold together
with what it asks on its way, and `Watched.document` the fold of a document that is watched so: it
takes every step of `Fold.document`, and notes at each question the node that is folded, the
ancestry of that node in the document, and the stack that was found.

The `Ancestry` of a node is what is around it: the definition, and in that the field and the
argument or input field, if there are any. `Fold.asks_ancestry` says that the stack is always just
this, on top of what the fold began with, and that no step leaves anything on it, failed or not.
-/

namespace SdlTypes

open Sdl

/-! ## What is around a node -/

/-- The references inside a reference to a type, itself first. -/
def Sdl.TypeRef.parts : TypeRef → List TypeRef
  | .named name required => [.named name required]
  | .list element required => .list element required :: element.parts

theorem Sdl.TypeRef.mem_parts_self (r : TypeRef) : r ∈ r.parts := by
  cases r <;> exact List.mem_cons_self

/-- A node inside a definition that is folded on its own. -/
inductive Node where
  /-- An argument or input field. -/
  | value (value : InputValueDef)
  /-- A reference to a type. -/
  | type (reference : TypeRef)

/-- What is around a node. -/
structure Ancestry where
  definition : TypeDef
  field : Option FieldDef := none
  value : Option InputValueDef := none

/-- The scope that a type definition opens, if it has something inside. -/
def Sdl.TypeKind.scope? : TypeKind → Option Scope
  | .object => some .object
  | .interface => some .interface
  | .union => some .union
  | .enum => some .enum
  | .input => some .inputObject
  | .scalar => none

namespace Ancestry

/-- The frames for what is around a node, the innermost first. -/
def frames (y : Ancestry) : List Frame :=
  (y.value.map fun v => ⟨.inputValue, v.name⟩).toList ++
    (y.field.map fun f => ⟨.field, f.name⟩).toList ++
      (y.definition.kind.scope?.map fun scope => ⟨scope, y.definition.name⟩).toList

/-- The frames of an ancestry on top of a stack. -/
def above (y : Ancestry) (start : Ancestors) : Ancestors :=
  ⟨y.frames ++ start.frames⟩

/-- Inside a definition the stack has a frame for it. -/
theorem enter_eq_above {d : TypeDef} {scope : Scope} (h : d.kind.scope? = some scope)
    (start : Ancestors) :
    start.enter ⟨scope, d.name⟩ = ({ definition := d } : Ancestry).above start := by
  simp [above, frames, h, Ancestors.enter]

end Ancestry

/-- The nodes inside a definition, each with its ancestry. -/
inductive Sdl.TypeDef.Holds (d : TypeDef) : Ancestry → Node → Prop
  | argument {f : FieldDef} {v : InputValueDef} (hk : d.kind = .object ∨ d.kind = .interface)
    (hf : .field f ∈ d.body.members) (hv : v ∈ f.arguments) :
    Holds d { definition := d, field := some f } (.value v)
  | argumentType {f : FieldDef} {v : InputValueDef} {r : TypeRef}
    (hk : d.kind = .object ∨ d.kind = .interface) (hf : .field f ∈ d.body.members)
    (hv : v ∈ f.arguments) (hr : r ∈ v.type.parts) :
    Holds d { definition := d, field := some f, value := some v } (.type r)
  | fieldType {f : FieldDef} {r : TypeRef} (hk : d.kind = .object ∨ d.kind = .interface)
    (hf : .field f ∈ d.body.members) (hr : r ∈ f.type.parts) :
    Holds d { definition := d, field := some f } (.type r)
  | inputField {v : InputValueDef} (hk : d.kind = .input) (hv : .input v ∈ d.body.members) :
    Holds d { definition := d } (.value v)
  | inputFieldType {v : InputValueDef} {r : TypeRef} (hk : d.kind = .input)
    (hv : .input v ∈ d.body.members) (hr : r ∈ v.type.parts) :
    Holds d { definition := d, value := some v } (.type r)

/-! ## Watched steps -/

/-- What is noted when the fold asks: the node that is folded, its ancestry, and the stack that
answers. -/
structure Inquiry where
  node : Node
  ancestry : Ancestry
  found : Ancestors

/-- An inquiry is about a node inside a definition, and finds what is around that node on top of a
stack. -/
def Inquiry.AgreesWith (d : TypeDef) (start : Ancestors) (q : Inquiry) : Prop :=
  d.Holds q.ancestry q.node ∧ q.found = q.ancestry.above start

/-- A step of the fold, and what it asks on its way from a stack. -/
structure Watched (α : Type) where
  step : Fold α
  inquiries : Ancestors → List Inquiry

namespace Watched

variable {α β : Type}

/-- A second step begins with the stack that the first one leaves, unless the first one fails. -/
instance : Monad Watched where
  pure x := ⟨pure x, fun _ => []⟩
  bind x f :=
    ⟨x.step >>= fun v => (f v).step, fun a => x.inquiries a ++
      match x.step.run.run a with
      | (.ok v, b) => (f v).inquiries b
      | (.error _, _) => []⟩

/-- A watched step inside a frame. -/
def within (frame : Frame) (x : Watched α) : Watched α :=
  ⟨Fold.within frame x.step, fun a => x.inquiries (a.enter frame)⟩

/-- A question at a node. -/
def ask (y : Ancestry) (n : Node) (question : Ancestors → α) : Watched α :=
  ⟨Fold.ask question, fun a => [⟨n, y, a⟩]⟩

/-- A step that fails. -/
def fail (e : FoldError) : Watched α :=
  ⟨throw e, fun _ => []⟩

/-- The result of a computation beside the fold. -/
def build (result : Except ConstructionError α) : Watched α :=
  ⟨Fold.build result, fun _ => []⟩

/-- Watched steps one after another. -/
def mapM (f : β → Watched α) : List β → Watched (List α)
  | [] => pure []
  | x :: l => do
    let y ← f x
    let ys ← mapM f l
    return y :: ys

@[simp] theorem step_pure (x : α) : (pure x : Watched α).step = pure x := rfl

@[simp] theorem step_bind (x : Watched α) (f : α → Watched β) :
    (x >>= f).step = x.step >>= fun v => (f v).step := rfl

@[simp] theorem step_map (f : α → β) (x : Watched α) : (f <$> x).step = f <$> x.step :=
  (map_eq_pure_bind f x.step).symm

@[simp] theorem step_within (frame : Frame) (x : Watched α) :
    (within frame x).step = Fold.within frame x.step := rfl

@[simp] theorem step_ask (y : Ancestry) (n : Node) (question : Ancestors → α) :
    (ask y n question).step = Fold.ask question := rfl

@[simp] theorem step_fail (e : FoldError) : (fail e : Watched α).step = throw e := rfl

@[simp] theorem step_build (result : Except ConstructionError α) :
    (build result).step = Fold.build result := rfl

@[simp] theorem step_ite {p : Prop} [Decidable p] (x y : Watched α) :
    (if p then x else y).step = if p then x.step else y.step := by
  split_ifs <;> rfl

theorem step_mapM {f : β → Watched α} {g : β → Fold α} (h : ∀ x, (f x).step = g x)
    (l : List β) : (mapM f l).step = l.mapM g := by
  induction l with
  | nil => rfl
  | cons x l ih =>
    rw [List.mapM_cons, ← ih, ← h]
    rfl

/-! ### What is asked -/

/-- All that a step asks from a stack is of a kind. -/
def Asks (x : Watched α) (a : Ancestors) (P : Inquiry → Prop) : Prop :=
  ∀ q ∈ x.inquiries a, P q

variable {a : Ancestors} {P : Inquiry → Prop}

theorem asks_pure (x : α) : (pure x : Watched α).Asks a P :=
  List.forall_mem_nil P

theorem asks_ask {y : Ancestry} {n : Node} {question : Ancestors → α} (h : P ⟨n, y, a⟩) :
    (ask y n question).Asks a P :=
  List.forall_mem_singleton.2 h

theorem asks_build (result : Except ConstructionError α) : (build result).Asks a P :=
  List.forall_mem_nil P

theorem asks_fail (e : FoldError) : (fail e : Watched α).Asks a P :=
  List.forall_mem_nil P

theorem asks_within {frame : Frame} {x : Watched α} (h : x.Asks (a.enter frame) P) :
    (within frame x).Asks a P := h

/-- Behind a step that puts the stack back, what is asked is asked of the same stack. -/
theorem asks_bind {x : Watched α} {f : α → Watched β} (hx : Fold.Balanced x.step)
    (h : x.Asks a P) (hf : ∀ v, (f v).Asks a P) : (x >>= f).Asks a P := by
  intro q hq
  rcases List.mem_append.1 hq with hq | hq
  · exact h q hq
  · rw [hx.run_eq] at hq
    cases hresult : Fold.outcome x.step a with
    | ok v =>
      rw [hresult] at hq
      exact hf v q hq
    | error e =>
      rw [hresult] at hq
      cases hq

theorem asks_ite {p : Prop} [Decidable p] {x y : Watched α} (hx : x.Asks a P) (hy : y.Asks a P) :
    (if p then x else y).Asks a P := by
  split_ifs <;> assumption

theorem asks_mapM {f : β → Watched α} {l : List β} (hbalanced : ∀ x, Fold.Balanced (f x).step)
    (h : ∀ x ∈ l, (f x).Asks a P) : (mapM f l).Asks a P := by
  induction l with
  | nil => exact asks_pure []
  | cons x l ih =>
    obtain ⟨hx, hl⟩ := List.forall_mem_cons.1 h
    refine asks_bind (hbalanced x) hx fun y => asks_bind ?_ (ih hl) fun ys => asks_pure _
    rw [step_mapM fun _ => rfl]
    exact Fold.balanced_mapM hbalanced l

end Watched

/-! ## The watched fold -/

namespace Watched

variable (c : FoldContext)

/-- A named type at `y`, inside a reference. -/
def namedType (y : Ancestry) (r : TypeRef) (name : String) : Watched String := do
  let input ← ask y (.type r) Ancestors.inInput
  let value ← ask y (.type r) (·.has .inputValue)
  if c.options.wrapFieldDefinitions && !input && !value then
    return "FieldWrapper<" ++ c.resolver.resolve name ++ ">"
  else return c.resolver.resolve name

/-- A reference to a type at `y`. -/
def typeRef (y : Ancestry) : TypeRef → Watched Fragment
  | .named name required => do
    let input ← ask y (.type (.named name required)) Ancestors.inInput
    return Fold.markRequired required
      (.nullable (← namedType c y (.named name required) name) input)
  | .list element required => do
    let input ← ask y (.type (.list element required)) Ancestors.inInput
    return Fold.markRequired required (.listOf (← typeRef y element) input)

/-- The check of an argument or input field at `y`. -/
def checkOneOf (y : Ancestry) (v : InputValueDef) (property : Property) : Watched Unit := do
  match ← ask y (.value v) Ancestors.nearestDefinition with
  | some ⟨.inputObject, typeName⟩ =>
    if Schema.isOneOf (c.schema.find? typeName) [] then
      build (OneOf.checkNullable typeName property)
  | _ => pure ()

/-- An argument or input field at `y`. -/
def inputValue (y : Ancestry) (v : InputValueDef) : Watched Property := do
  let type ← within ⟨.inputValue, v.name⟩ (typeRef c { y with value := some v } v.type)
  let property : Property :=
    { name := v.name, type, optional := Fold.isOptional c.options.avoidOptionals v
      required := v.type.required, comment := Comment.ofMember 1 v.description v.directives
      override := Fold.directiveOverride c v.directives }
  checkOneOf c y v property
  return property

/-- A field at `y`. -/
def field (y : Ancestry) (f : FieldDef) : Watched FieldProperty := do
  let (arguments, type) ← within ⟨.field, f.name⟩ do
    let arguments ← mapM (inputValue c { y with field := some f }) f.arguments
    return (arguments, ← typeRef c { y with field := some f } f.type)
  return {
    name := f.name, type
    optional := !c.options.avoidOptionals.field && !f.type.required
    required := f.type.required, comment := Comment.ofMember 1 f.description f.directives
    override :=
      if c.options.wrapEntireFieldDefinitions then
        some ("EntireFieldWrapper<" ++ type.render ++ ">")
      else none
    arguments }

/-- A member of an object or interface. -/
def fieldMember (d : TypeDef) : Member → Watched FieldProperty
  | .field f => field c { definition := d } f
  | .input v => fail (.strayMember v.name)

/-- A member of an input object. -/
def inputMember (d : TypeDef) : Member → Watched Property
  | .input v => inputValue c { definition := d } v
  | .field f => fail (.strayMember f.name)

/-- An object type. -/
def object (d : TypeDef) : Watched (List Statement) := do
  let fields ← within ⟨.object, d.name⟩ (mapM (fieldMember c d) d.body.members)
  if c.options.suppressesOutput then return []
  return Fold.withArguments c d .type (Fold.typenameLine c.options d.name) fields

/-- An interface. -/
def interface (d : TypeDef) : Watched (List Statement) := do
  let fields ← within ⟨.interface, d.name⟩ (mapM (fieldMember c d) d.body.members)
  if c.options.suppressesOutput then return []
  return Fold.withArguments c d (if d.body.interfaces.isEmpty then .interface else .type) [] fields

/-- An input object. -/
def input (d : TypeDef) : Watched (List Statement) := do
  let fields ← within ⟨.inputObject, d.name⟩ (mapM (inputMember c d) d.body.members)
  if c.options.onlyEnums then return []
  let body ←
    if Schema.isOneOf (c.schema.find? d.name) d.directives then
      Body.oneOf <$> build (OneOf.arms d.name fields c.options.immutableTypes)
    else pure (.properties [] (fields.map (Fold.memberLine c)))
  return [.declare (Fold.declaration c d .type (c.resolver.convertName d.name) body)]

/-- A union. -/
def union (d : TypeDef) : Watched (List Statement) := do
  let members ← within ⟨.union, d.name⟩
    (pure (d.body.types.map fun name => .reference (c.resolver.resolveUnionMember name)))
  if c.options.suppressesOutput then return []
  let other := if c.options.futureProofUnions then [.other c.options.immutableTypes] else []
  return [.declare (Fold.declaration c d .type (c.resolver.convertName d.name)
    (.union (members ++ other)))]

/-- An enum. -/
def enum (d : TypeDef) : Watched (List Statement) := do
  let symbol := c.symbols.enums.find? d.name
  let values ← within ⟨.enum, d.name⟩ (pure (d.body.values.map (Fold.enumerator c symbol)))
  match symbol.filter EnumSymbol.isExternal with
  | some s =>
    if c.options.noExport then return []
    else return [.reexport s.identifier c.options.useTypeImports]
  | none =>
    let name := c.resolver.enumName d.name
    if c.options.enumsAsTypes then
      return [.declare (Fold.declaration c d .type name (.literals values))]
    else return [.declare (Fold.declaration c d .enum name (.enumerators values))]

/-- A definition. -/
def definition : Definition → Watched (List Statement)
  | .type d =>
    match d.kind with
    | .object => object c d
    | .interface => interface c d
    | .union => union c d
    | .enum => enum c d
    | .input => input c d
    | .scalar => pure []
  | _ => pure []

/-- All definitions of a document. -/
def document (d : Document) : Watched (List (List Statement)) :=
  mapM (definition c) d.definitions

/-! ### The steps are those of the fold -/

theorem step_namedType (y : Ancestry) (r : TypeRef) (name : String) :
    (namedType c y r name).step = Fold.namedType c name := by
  simp only [namedType, step_bind, step_ask, step_ite, step_pure]
  rfl

theorem step_typeRef (y : Ancestry) : ∀ r : TypeRef, (typeRef c y r).step = Fold.typeRef c r
  | .named name required => by
    simp only [typeRef, step_bind, step_ask, step_pure, step_namedType]
    rfl
  | .list element required => by
    simp only [typeRef, step_bind, step_ask, step_pure, step_typeRef y element]
    rfl

theorem step_checkOneOf (y : Ancestry) (v : InputValueDef) (property : Property) :
    (checkOneOf c y v property).step = Fold.checkOneOf c property := by
  rw [checkOneOf, step_bind, step_ask, Fold.checkOneOf]
  congr 1
  funext definition
  split <;> simp

theorem step_inputValue (y : Ancestry) (v : InputValueDef) :
    (inputValue c y v).step = Fold.inputValue c v := by
  simp only [inputValue, step_bind, step_within, step_typeRef, step_checkOneOf, step_pure]
  rfl

theorem step_field (y : Ancestry) (f : FieldDef) : (field c y f).step = Fold.field c f := by
  simp only [field, step_bind, step_within, step_typeRef, step_pure,
    step_mapM (step_inputValue c _)]
  rfl

theorem step_fieldMember (d : TypeDef) (m : Member) :
    (fieldMember c d m).step = Fold.fieldMember c m := by
  cases m with
  | field f => exact step_field c _ f
  | input v => rfl

theorem step_inputMember (d : TypeDef) (m : Member) :
    (inputMember c d m).step = Fold.inputMember c m := by
  cases m with
  | field f => rfl
  | input v => exact step_inputValue c _ v

theorem step_object (d : TypeDef) : (object c d).step = Fold.object c d := by
  simp only [object, step_bind, step_within, step_ite, step_pure,
    step_mapM (step_fieldMember c d)]
  rfl

theorem step_interface (d : TypeDef) : (interface c d).step = Fold.interface c d := by
  simp only [interface, step_bind, step_within, step_ite, step_pure,
    step_mapM (step_fieldMember c d)]
  rfl

theorem step_union (d : TypeDef) : (union c d).step = Fold.union c d := by
  simp only [union, step_bind, step_within, step_ite, step_pure]
  rfl

theorem step_enum (d : TypeDef) : (enum c d).step = Fold.enum c d := by
  rw [enum, step_bind, step_within, step_pure, Fold.enum]
  congr 1
  funext values
  cases (c.symbols.enums.find? d.name).filter EnumSymbol.isExternal <;> simp

theorem step_input (d : TypeDef) : (input c d).step = Fold.input c d := by
  simp only [input, step_bind, step_within, step_ite, step_pure, step_map, step_build,
    step_mapM (step_inputMember c d)]
  rfl

theorem step_definition (x : Definition) : (definition c x).step = Fold.definition c x := by
  cases x with
  | type d =>
    simp only [definition, Fold.definition]
    cases d.kind with
    | object => exact step_object c d
    | interface => exact step_interface c d
    | union => exact step_union c d
    | enum => exact step_enum c d
    | input => exact step_input c d
    | scalar => rfl
  | _ => rfl

theorem step_document (d : Document) : (document c d).step = Fold.document c d :=
  step_mapM (step_definition c) d.definitions

/-! ### What the fold asks -/

variable {y : Ancestry} {a : Ancestors} {P : Inquiry → Prop}

theorem asks_namedType {r : TypeRef} (h : P ⟨.type r, y, a⟩) (name : String) :
    (namedType c y r name).Asks a P :=
  asks_bind (Fold.balanced_ask _) (asks_ask h) fun _ =>
    asks_bind (Fold.balanced_ask _) (asks_ask h) fun _ =>
      asks_ite (asks_pure _) (asks_pure _)

/-- A reference is asked about at each of its parts. -/
theorem asks_typeRef : ∀ {r : TypeRef}, (∀ t ∈ r.parts, P ⟨.type t, y, a⟩) →
    (typeRef c y r).Asks a P
  | .named name required, h => by
    have hself := h _ (TypeRef.mem_parts_self _)
    refine asks_bind (Fold.balanced_ask _) (asks_ask hself) fun _ =>
      asks_bind ?_ (asks_namedType c hself name) fun _ => asks_pure _
    rw [step_namedType]
    exact Fold.balanced_namedType c name
  | .list element required, h => by
    refine asks_bind (Fold.balanced_ask _) (asks_ask (h _ (TypeRef.mem_parts_self _))) fun _ =>
      asks_bind ?_ (asks_typeRef fun t ht => h t (List.mem_cons_of_mem _ ht)) fun _ => asks_pure _
    rw [step_typeRef]
    exact Fold.balanced_typeRef c element

theorem asks_checkOneOf {v : InputValueDef} (h : P ⟨.value v, y, a⟩) (property : Property) :
    (checkOneOf c y v property).Asks a P := by
  refine asks_bind (Fold.balanced_ask _) (asks_ask h) fun definition => ?_
  split
  · exact asks_ite (asks_build _) (asks_pure _)
  · exact asks_pure _

/-- An argument or input field is asked about itself, and its type inside it. -/
theorem asks_inputValue {v : InputValueDef} (h : P ⟨.value v, y, a⟩)
    (htype : ∀ t ∈ v.type.parts,
      P ⟨.type t, { y with value := some v }, a.enter ⟨.inputValue, v.name⟩⟩) :
    (inputValue c y v).Asks a P := by
  refine asks_bind ?_ (asks_within (asks_typeRef c htype)) fun type =>
    asks_bind ?_ (asks_checkOneOf c h _) fun _ => asks_pure _
  · rw [step_within, step_typeRef]
    exact (Fold.balanced_typeRef c _).within _
  · rw [step_checkOneOf]
    exact Fold.balanced_checkOneOf c _

theorem balanced_inputValue (y : Ancestry) (v : InputValueDef) :
    Fold.Balanced (inputValue c y v).step := by
  rw [step_inputValue]
  exact Fold.balanced_inputValue c v

/-- A field is asked about its type, and its arguments inside it. -/
theorem asks_field {f : FieldDef}
    (hvalue : ∀ v ∈ f.arguments,
      P ⟨.value v, { y with field := some f }, a.enter ⟨.field, f.name⟩⟩)
    (hvalueType : ∀ v ∈ f.arguments, ∀ t ∈ v.type.parts,
      P ⟨.type t, { y with field := some f, value := some v },
        (a.enter ⟨.field, f.name⟩).enter ⟨.inputValue, v.name⟩⟩)
    (htype : ∀ t ∈ f.type.parts,
      P ⟨.type t, { y with field := some f }, a.enter ⟨.field, f.name⟩⟩) :
    (field c y f).Asks a P := by
  have harguments :
      Fold.Balanced (mapM (inputValue c { y with field := some f }) f.arguments).step := by
    rw [step_mapM fun _ => rfl]
    exact Fold.balanced_mapM (balanced_inputValue c _) _
  have hfield : Fold.Balanced (typeRef c { y with field := some f } f.type).step := by
    rw [step_typeRef]
    exact Fold.balanced_typeRef c _
  refine asks_bind ?_ (asks_within (asks_bind harguments ?_ fun arguments =>
    asks_bind hfield (asks_typeRef c htype) fun type => asks_pure _)) fun _ => asks_pure _
  · exact (harguments.bind fun arguments => hfield.bind fun type => Fold.balanced_pure _).within _
  · exact asks_mapM (balanced_inputValue c _) fun v hv =>
      asks_inputValue c (hvalue v hv) (hvalueType v hv)

variable {d : TypeDef} {m : Member}

theorem asks_fieldMember (hk : d.kind = .object ∨ d.kind = .interface)
    (hm : m ∈ d.body.members) (start : Ancestors) :
    (fieldMember c d m).Asks (({ definition := d } : Ancestry).above start)
      (Inquiry.AgreesWith d start) := by
  cases m with
  | field f =>
    exact asks_field c (fun v hv => ⟨.argument hk hm hv, rfl⟩)
      (fun v hv t ht => ⟨.argumentType hk hm hv ht, rfl⟩) fun t ht => ⟨.fieldType hk hm ht, rfl⟩
  | input v => exact asks_fail _

theorem asks_inputMember (hk : d.kind = .input) (hm : m ∈ d.body.members) (start : Ancestors) :
    (inputMember c d m).Asks (({ definition := d } : Ancestry).above start)
      (Inquiry.AgreesWith d start) := by
  cases m with
  | field f => exact asks_fail _
  | input v =>
    exact asks_inputValue c ⟨.inputField hk hm, rfl⟩ fun t ht => ⟨.inputFieldType hk hm ht, rfl⟩

theorem balanced_fieldMember (d : TypeDef) (m : Member) :
    Fold.Balanced (fieldMember c d m).step := by
  rw [step_fieldMember]
  exact Fold.balanced_fieldMember c m

theorem balanced_inputMember (d : TypeDef) (m : Member) :
    Fold.Balanced (inputMember c d m).step := by
  rw [step_inputMember]
  exact Fold.balanced_inputMember c m

/-- The members of a definition, inside its frame. -/
theorem asks_members {α : Type} {f : Member → Watched α} {scope : Scope}
    (hscope : d.kind.scope? = some scope) (hbalanced : ∀ m, Fold.Balanced (f m).step)
    (h : ∀ m ∈ d.body.members, ∀ start,
      (f m).Asks (({ definition := d } : Ancestry).above start) (Inquiry.AgreesWith d start))
    {g : List α → Watched (List Statement)}
    (hg : ∀ fields start, (g fields).Asks start (Inquiry.AgreesWith d start))
    (start : Ancestors) :
    (within ⟨scope, d.name⟩ (mapM f d.body.members) >>= g).Asks start
      (Inquiry.AgreesWith d start) := by
  refine asks_bind ?_ (asks_within ?_) fun fields => hg fields start
  · rw [step_within, step_mapM fun _ => rfl]
    exact (Fold.balanced_mapM hbalanced _).within _
  · rw [Ancestry.enter_eq_above hscope]
    exact asks_mapM hbalanced fun m hm => h m hm start

/-- A type definition asks only about nodes inside it, and finds what is around them. -/
theorem asks_typeDefinition (d : TypeDef) (start : Ancestors) :
    (definition c (.type d)).Asks start (Inquiry.AgreesWith d start) := by
  simp only [definition]
  cases hk : d.kind with
  | object =>
    exact asks_members (by rw [hk]; rfl) (balanced_fieldMember c d)
      (fun m => asks_fieldMember c (.inl hk))
      (fun _ _ => asks_ite (asks_pure _) (asks_pure _)) start
  | interface =>
    exact asks_members (by rw [hk]; rfl) (balanced_fieldMember c d)
      (fun m => asks_fieldMember c (.inr hk))
      (fun _ _ => asks_ite (asks_pure _) (asks_pure _)) start
  | input =>
    refine asks_members (by rw [hk]; rfl) (balanced_inputMember c d)
      (fun m => asks_inputMember c hk) (fun fields start => asks_ite (asks_pure _) ?_) start
    have hbuild : Fold.Balanced
        (build (OneOf.arms d.name fields c.options.immutableTypes)).step := Fold.balanced_build _
    exact asks_ite
      (asks_bind (hbuild.bind fun _ => Fold.balanced_pure _)
        (asks_bind hbuild (asks_build _) fun _ => asks_pure _) fun _ => asks_pure _)
      (asks_bind (Fold.balanced_pure _) (asks_pure _) fun _ => asks_pure _)
  | union =>
    exact asks_bind ((Fold.balanced_pure _).within _) (asks_within (asks_pure _)) fun _ =>
      asks_ite (asks_pure _) (asks_pure _)
  | enum =>
    refine asks_bind ((Fold.balanced_pure _).within _) (asks_within (asks_pure _)) fun _ => ?_
    dsimp only
    cases (c.symbols.enums.find? d.name).filter EnumSymbol.isExternal <;>
      exact asks_ite (asks_pure _) (asks_pure _)
  | scalar => exact asks_pure _

theorem asks_definition (x : Definition) (start : Ancestors) :
    (definition c x).Asks start fun q => ∃ d, x = .type d ∧ q.AgreesWith d start := by
  cases x with
  | type d => exact fun q hq => ⟨d, rfl, asks_typeDefinition c d start q hq⟩
  | _ => exact asks_pure _

/-- A document asks only about nodes inside its definitions, and finds what is around them. -/
theorem asks_document (d : Document) (start : Ancestors) :
    (document c d).Asks start fun q => ∃ t, .type t ∈ d.definitions ∧ q.AgreesWith t start := by
  refine asks_mapM (fun x => ?_) fun x hx q hq => ?_
  · rw [step_definition]
    exact Fold.balanced_definition c x
  · obtain ⟨t, rfl, hagrees⟩ := asks_definition c x start q hq
    exact ⟨t, hx, hagrees⟩

end Watched

/-! ## The answers -/

theorem Sdl.TypeKind.isDefinition_of_scope? {k : TypeKind} {scope : Scope}
    (h : k.scope? = some scope) : scope.isDefinition = true := by
  cases k <;> cases h <;> rfl

namespace Ancestry

/-- A node is in an input object if the definition around it is one, or the whole stands in one. -/
theorem inInput_above (y : Ancestry) (start : Ancestors) :
    (y.above start).inInput = (decide (y.definition.kind = .input) || start.inInput) := by
  obtain ⟨d, f, v⟩ := y
  cases hk : d.kind <;> simp only [above, frames, hk, Ancestors.inInput, Ancestors.has] <;>
    cases f <;> cases v <;> rfl

/-- Fields, arguments and input fields are no definitions. -/
theorem nearestDefinition_above {y : Ancestry} {scope : Scope}
    (h : y.definition.kind.scope? = some scope) (start : Ancestors) :
    (y.above start).nearestDefinition = some ⟨scope, y.definition.name⟩ := by
  have hscope := TypeKind.isDefinition_of_scope? h
  have hfield : Scope.field.isDefinition = false := rfl
  have hvalue : Scope.inputValue.isDefinition = false := rfl
  obtain ⟨d, f, v⟩ := y
  cases f <;> cases v <;>
    simp [above, frames, h, hscope, hfield, hvalue, Ancestors.nearestDefinition]

end Ancestry

/-- A definition that holds a node opens a scope, and is what is around that node. -/
theorem Sdl.TypeDef.Holds.exists_scope {d : TypeDef} {y : Ancestry} {n : Node}
    (h : d.Holds y n) : y.definition = d ∧ ∃ scope, d.kind.scope? = some scope := by
  cases h with
  | argument hk | argumentType hk | fieldType hk =>
    refine ⟨rfl, ?_⟩
    rcases hk with hk | hk <;> exact ⟨_, by rw [hk]; rfl⟩
  | inputField hk | inputFieldType hk => exact ⟨rfl, _, by rw [hk]; rfl⟩

/-! ## The fold -/

namespace Fold

/-- Definitions that are folded one after another, whatever becomes of those before, each give what
they give on their own. -/
theorem run_definitions (c : FoldContext) (xs : List Definition) (start : Ancestors) :
    (xs.mapM fun x => (definition c x).run).run start =
      (xs.map fun x => outcome (definition c x) start, start) := by
  induction xs with
  | nil => rfl
  | cons x xs ih =>
    have hrun := (balanced_definition c x).run_eq start
    rw [List.mapM_cons, StateT.run_bind, hrun]
    change StateT.run (xs.mapM _ >>= _) start = _
    rw [StateT.run_bind, ih]
    rfl

variable (c : FoldContext) (start : Ancestors)

/-- In `type Q { f(a: Int): Int }` the fold asks three times about the type of `a`, once about `a`
itself, and three times about the type of `f`. -/
example :
    ((Watched.definition (.ofTables (.ofTypes [] []) {} ⟨∅, ∅, ∅⟩ id) (.type ⟨none, "Q", [],
      .object [] [.field ⟨none, "f", [⟨none, "a", .named "Int" false, none, []⟩],
        .named "Int" false, []⟩]⟩)).inquiries {}).map (fun q => q.found.frames.map Frame.name) =
      [["a", "f", "Q"], ["a", "f", "Q"], ["a", "f", "Q"], ["f", "Q"],
        ["f", "Q"], ["f", "Q"], ["f", "Q"]] := by
  decide

end Fold

end SdlTypes
