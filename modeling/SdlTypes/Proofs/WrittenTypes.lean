import SdlTypes.Proofs.FoldOutcome

/-!
# Types by position and context

What the type of a member looks like, read off the reference from the outside in
(`TypeRef.written`): a position that may be null stands inside the wrapper, one that may not stands
for itself, a list is an `Array`, a name is whatever a name is written as. The fold works the other
way round. It wraps every position on its way out, takes the wrapper away again where there is a
mark, and looks at the ancestors at every level; `TypeRef.render_fragment` shows that both ways
lead to the same text.

Which wrapper it is, and whether names get one of their own, depends only on the definition around
the member and on the kind of the member. `Fold.writes_members` says so for fields with their
arguments and for input fields, together with the flags that the folded members carry.
-/

namespace SdlTypes

open Sdl

/-! ## References -/

/-- A written type at its position: inside the wrapper unless it is marked as never null. -/
def Wrapper.position (w : Wrapper) (required : Bool) (text : String) : String :=
  if required then text else w.name ++ "<" ++ text ++ ">"

namespace Sdl.TypeRef

/-- The reference as it is written, given the wrapper and what names are written as. -/
def written (w : Wrapper) (leaf : String → String) : TypeRef → String
  | named name required => w.position required (leaf name)
  | list element required => w.position required ("Array<" ++ element.written w leaf ++ ">")

end Sdl.TypeRef

/-- Wrapping and then heeding the mark puts a text at its position. -/
theorem Fold.render_markRequired (required input : Bool) (text : String) :
    (markRequired required (.nullable text input)).render =
      (Wrapper.forInput input).position required text := by
  cases required <;> rfl

namespace Sdl.TypeRef

/-- A fragment is built from the inside out and reads as written from the outside in. -/
theorem render_fragment (input : Bool) (leaf : String → String) :
    ∀ r : TypeRef, (r.fragment input leaf).render = r.written (Wrapper.forInput input) leaf
  | named name required => Fold.render_markRequired required input (leaf name)
  | list element required => by
    rw [fragment, Fragment.listOf, Fold.render_markRequired, render_fragment input leaf element,
      written]

example : (TypeRef.list (.list (.named "A" false) true) false).written .maybe id =
    "Maybe<Array<Array<Maybe<A>>>>" := by decide

/-- The mark on the whole reference, and no mark further inside, takes the wrapper away. -/
theorem wrapper_fragment (input : Bool) (leaf : String → String) (r : TypeRef) :
    (r.fragment input leaf).wrapper =
      if r.required then none else some (Wrapper.forInput input) := by
  cases r with
  | named name required => cases required <;> rfl
  | list element required => cases required <;> rfl

theorem wrapper_fragment_eq_none_iff (input : Bool) (leaf : String → String) (r : TypeRef) :
    (r.fragment input leaf).wrapper = none ↔ r.required = true := by
  rw [wrapper_fragment]
  cases r.required <;> simp

end Sdl.TypeRef

/-! ## Members -/

/-- A folded member carries the reference `r`: its type reads as the reference is written, and it
has lost its wrapper if and only if the member is required, as the reference is. -/
structure Property.Carries (p : Property) (r : TypeRef) (w : Wrapper) (leaf : String → String) :
    Prop where
  text : p.type.render = r.written w leaf
  unwrapped : p.type.wrapper = none ↔ p.required = true
  required : p.required = true ↔ r.required = true

namespace FoldContext

variable (c : FoldContext)

/-- An argument or input field in folded form. Names in it are written as they are resolved. -/
structure WritesInputValue (w : Wrapper) (v : InputValueDef) (p : Property) : Prop where
  name : p.name = v.name
  type : p.Carries v.type w c.resolver.resolve
  optional : p.optional = true ↔
    c.options.avoidOptionals.inputValue = false ∧
      (v.type.required = false ∨
        v.defaultValue.isSome = true ∧ c.options.avoidOptionals.defaultValue = false)

/-- A field in folded form, with its arguments. A name in the type of the field, and only there,
may get a wrapper of its own. -/
structure WritesField (f : FieldDef) (p : FieldProperty) : Prop where
  name : p.name = f.name
  type : p.Carries f.type .maybe fun name =>
    if c.options.wrapFieldDefinitions then "FieldWrapper<" ++ c.resolver.resolve name ++ ">"
    else c.resolver.resolve name
  optional : p.optional = true ↔
    f.type.required = false ∧ c.options.avoidOptionals.field = false
  arguments : List.Forall₂ (c.WritesInputValue .maybe) f.arguments p.arguments

theorem writesInputValue_inputProperty (input : Bool) (v : InputValueDef) :
    c.WritesInputValue (Wrapper.forInput input) v (c.inputProperty input v) where
  name := rfl
  type := ⟨v.type.render_fragment input _, v.type.wrapper_fragment_eq_none_iff input _, Iff.rfl⟩
  optional := by
    change Fold.isOptional c.options.avoidOptionals v = true ↔ _
    rw [Fold.isOptional]
    simp only [Bool.and_eq_true, Bool.or_eq_true, Bool.not_eq_true', and_comm]

theorem writesField_fieldProperty (f : FieldDef) : c.WritesField f (c.fieldProperty f) where
  name := rfl
  type := ⟨f.type.render_fragment false _, f.type.wrapper_fragment_eq_none_iff false _, Iff.rfl⟩
  optional := by
    change (!c.options.avoidOptionals.field && !f.type.required) = true ↔ _
    simp only [Bool.and_eq_true, Bool.not_eq_true', and_comm]
  arguments := by
    change List.Forall₂ _ f.arguments (f.arguments.map (c.inputProperty false))
    rw [List.forall₂_map_right_iff, List.forall₂_same]
    exact fun v _ => c.writesInputValue_inputProperty false v

end FoldContext

/-! ## The members of a definition -/

namespace FoldContext

variable (c : FoldContext)

/-- The field for which the fold refuses an input object: in one of which exactly one field is set,
the first that may not be null. -/
def refused? (typeName : String) (vs : List InputValueDef) : Option InputValueDef :=
  if Schema.isOneOf (c.schema.find? typeName) [] then vs.find? fun v => v.type.required else none

/-- The fields of an input object are all folded, or the refused one is the error. -/
theorem mapM_inputResult_eq (typeName : String) (vs : List InputValueDef) :
    (vs.map Member.input).mapM (c.inputResult typeName) =
      match c.refused? typeName vs with
      | some v => .error (.construction ⟨typeName, v.name⟩)
      | none => .ok (vs.map (c.inputProperty true)) := by
  rw [mapM_inputResult, refused?]
  cases hone : Schema.isOneOf (c.schema.find? typeName) [] with
  | false =>
    rw [c.verdict_of_not_isOneOf hone, forM_ok]
    rfl
  | true =>
    rw [c.verdict_of_isOneOf hone, forM_mapError, forM_checkNullable, if_pos rfl]
    cases vs.find? fun v => v.type.required <;> rfl

end FoldContext

namespace Fold

variable {α : Type}

/-- A step that begins with the stack `a` gives a result with the property `P` and leaves the
stack as it was. -/
def Yields (step : Fold α) (a : Ancestors) (P : α → Prop) : Prop :=
  ∃ x, step.run.run a = (.ok x, a) ∧ P x

variable (c : FoldContext)

/-- The fields of an object or interface are written one after another. -/
theorem yields_fields {scope : Scope} (hi : scope ≠ .inputObject) (hv : scope ≠ .inputValue)
    (typeName : String) (fs : List FieldDef) :
    Yields (within ⟨scope, typeName⟩ ((fs.map Member.field).mapM (fieldMember c))) {}
      (List.Forall₂ c.WritesField fs) := by
  have hin : (({} : Ancestors).enter ⟨scope, typeName⟩).OutsideInput :=
    Ancestors.outsideInput_empty.enter hi hv
  refine ⟨fs.map c.fieldProperty, ?_, ?_⟩
  · rw [((balanced_mapM (balanced_fieldMember c) _).within _).run_eq, outcome_within,
      outcome_mapM (balanced_fieldMember c)]
    simp only [outcome_fieldMember c hin, c.mapM_fieldResult]
  · rw [List.forall₂_map_right_iff, List.forall₂_same]
    exact fun f _ => c.writesField_fieldProperty f

/-- What the fold writes for the members of a definition. In objects and interfaces fields, and
the arguments of fields, have `Maybe` at every nullable position; input fields have `InputMaybe`
there. Nothing is written only for an input object with a field that is refused. -/
theorem writes_members (typeName : String) :
    (∀ fs : List FieldDef,
      Yields (within ⟨.object, typeName⟩ ((fs.map Member.field).mapM (fieldMember c))) {}
        (List.Forall₂ c.WritesField fs)) ∧
    (∀ fs : List FieldDef,
      Yields (within ⟨.interface, typeName⟩ ((fs.map Member.field).mapM (fieldMember c))) {}
        (List.Forall₂ c.WritesField fs)) ∧
    ∀ vs : List InputValueDef,
      match c.refused? typeName vs with
      | some v =>
        (within ⟨.inputObject, typeName⟩ ((vs.map Member.input).mapM (inputMember c))).run.run {} =
          (.error (.construction ⟨typeName, v.name⟩), {})
      | none =>
        Yields (within ⟨.inputObject, typeName⟩ ((vs.map Member.input).mapM (inputMember c))) {}
          (List.Forall₂ (c.WritesInputValue .inputMaybe) vs) := by
  refine ⟨yields_fields c (by decide) (by decide) typeName,
    yields_fields c (by decide) (by decide) typeName, fun vs => ?_⟩
  have hrun := ((balanced_mapM (balanced_inputMember c) (vs.map Member.input)).within
    ⟨.inputObject, typeName⟩).run_eq {}
  rw [outcome_within, outcome_mapM (balanced_inputMember c)] at hrun
  simp only [outcome_inputMember c, c.mapM_inputResult_eq] at hrun
  cases hrefused : c.refused? typeName vs with
  | some v => simpa only [hrefused] using hrun
  | none =>
    rw [hrefused] at hrun
    refine ⟨_, hrun, ?_⟩
    rw [List.forall₂_map_right_iff, List.forall₂_same]
    exact fun v _ => c.writesInputValue_inputProperty true v

end Fold

end SdlTypes
