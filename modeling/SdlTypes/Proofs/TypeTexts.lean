import SdlTypes.Proofs.DeclarationCode
import SdlTypes.Proofs.FoldOutcome
import SdlTypes.Proofs.NameCharacters
import SdlTypes.Proofs.WellFormed

/-!
# The texts of types

The text in a type position is put together in few ways: a name, a name in quotes, a member of a
container, and a helper type around another text. A property of texts that goes through all of
these (`Text.TypeProperty`) holds of the type of every property as soon as it holds of converted
names (`FoldContext.WritesNames`). So it is shown once for each of the ways, and
`FoldContext.WritesNames.typeText_inputProperty` and `FoldContext.WritesNames.typeText_fieldProperty`
give it for what arguments and fields become.
-/

namespace SdlTypes

open Sdl Text Token

/-! ## Names -/

/-- What is spelled as a name consists of the characters of names. -/
theorem Sdl.IsName.areNameParts {s : String} (h : IsName s) : AreNameParts s.toList := by
  obtain ⟨c, rest, heq, hc, hrest⟩ := h
  rw [heq, areNameParts_cons]
  refine ⟨?_, hrest⟩
  simp only [Token.isNameStart, Token.isNamePart, Char.isAlphanum, Bool.or_eq_true] at hc ⊢
  exact hc.imp_left .inl

theorem Sdl.IsName.ne_empty {name : String} (h : IsName name) : name ≠ "" := by
  rintro rfl
  obtain ⟨c, rest, hnil, -⟩ := h
  cases hnil

/-- With nothing around it a name is converted and no more. -/
theorem Resolver.convertName_alone (r : Resolver) (name : String) :
    r.convertName name false false = r.convert name := by
  rw [Resolver.convertName, Naming.affixed]
  simp

/-- A character that neither the converted name nor what is put around it has. -/
theorem Resolver.notMem_convertName {r : Resolver} {mark : Char} {name : String}
    (hbefore : mark ∉ r.options.typesPrefix.toList) (hafter : mark ∉ r.options.typesSuffix.toList)
    (h : mark ∉ (r.convert name).toList) (before after : Bool) :
    mark ∉ (r.convertName name before after).toList := by
  have hpart (on : Bool) {t : String} (h : mark ∉ t.toList) :
      mark ∉ (if on then t else "").toList := by
    cases on
    · exact List.not_mem_nil
    · exact h
  rw [convertName, Naming.affixed, String.toList_append, String.toList_append, List.mem_append,
    List.mem_append, not_or, not_or]
  exact ⟨⟨hpart before hbefore, h⟩, hpart after hafter⟩

/-! ## Properties of texts -/

/-- The helper types that take a type. -/
def typeHelpers : List String :=
  ["Maybe", "InputMaybe", "Array", "FieldWrapper", "EntireFieldWrapper"]

/-- A property of texts that types have if the names in them do. -/
structure Text.TypeProperty (P : String → Prop) : Prop where
  /-- It goes through the helper types. -/
  generic : ∀ helper ∈ typeHelpers, ∀ s, P s → P (helper ++ "<" ++ s ++ ">")
  /-- The members of containers have it. -/
  member : ∀ container ∈ ["Scalars", Fold.directiveContainer], ∀ name : String,
    AreNameParts name.toList → P (container ++ "['" ++ name ++ "']")

/-- To leave a character alone that types do not need is such a property. -/
theorem Text.typeProperty_notMem (mark : Char) (hname : isNamePart mark = false)
    (hmarks : mark ∉ ['<', '>', '[', ']', '\'']) : TypeProperty fun s => mark ∉ s.toList := by
  have hword {s : String} (h : AreNameParts s.toList) : mark ∉ s.toList := fun hmem => by
    have := h mark hmem
    rw [hname] at this
    cases this
  simp only [List.mem_cons, List.not_mem_nil, or_false, not_or] at hmarks
  obtain ⟨hless, hgreater, hopen, hclose, hquote⟩ := hmarks
  constructor
  · intro helper hhelper s hs
    have hhelpers : ∀ helper ∈ typeHelpers, helper.toList.all isNamePart = true := by decide
    have hfree := hword (areNameParts_of_all (hhelpers helper hhelper))
    simpa [hless, hgreater] using And.intro hfree hs
  · intro container hcontainer name hn
    have hcontainers : ∀ container ∈ ["Scalars", Fold.directiveContainer],
        container.toList.all isNamePart = true := by
      decide
    have hfree := hword (areNameParts_of_all (hcontainers container hcontainer))
    simpa [hopen, hclose, hquote] using And.intro hfree (hword hn)

/-- To have no slash is one of these. -/
theorem Text.typeProperty_slashFree : TypeProperty SlashFree :=
  typeProperty_notMem '/' (by decide) (by decide)

/-- Whether all converted names have a property, whatever is put around them. -/
def FoldContext.WritesNames (c : FoldContext) (P : String → Prop) : Prop :=
  ∀ name : String, name ≠ "" → AreNameParts name.toList → ∀ before after,
    P (c.resolver.convertName name before after)

/-! ## Types -/

section

variable {P : String → Prop} (hP : TypeProperty P) {leaf : String → String}

include hP

theorem Text.TypeProperty.render {f : SdlTypes.Fragment} (h : P f.text) : P f.render := by
  unfold Fragment.render
  split
  · exact h
  · next w _ => cases w <;> exact hP.generic _ (by decide) _ h

theorem Text.TypeProperty.fragment (input : Bool) {r : TypeRef} (h : P (leaf r.baseName)) :
    P (r.fragment input leaf).text := by
  induction r with
  | named name required =>
    rw [TypeRef.fragment, Fold.markRequired]
    split_ifs <;> exact h
  | list element required ih =>
    have hlist : P ("Array" ++ "<" ++ (element.fragment input leaf).render ++ ">") :=
      hP.generic "Array" (by decide) _ (hP.render (ih h))
    rw [TypeRef.fragment, Fold.markRequired]
    split_ifs <;> exact hlist

end

namespace FoldContext

variable {c : FoldContext} {P : String → Prop}

section

variable (hc : c.WritesNames P)

include hc

theorem WritesNames.convertName {name : String} (h : IsName name) (before after : Bool) :
    P (c.resolver.convertName name before after) :=
  hc name h.ne_empty h.areNameParts before after

/-- The name of the type of a field's arguments is a converted name as well. -/
theorem WritesNames.argumentsTypeName
    (hconvert : ∀ s : String, AreNameParts s.toList → AreNameParts (c.resolver.convert s).toList)
    {typeName fieldName : String} (ht : AreNameParts typeName.toList)
    (hf : AreNameParts fieldName.toList) : P (c.resolver.argumentsTypeName typeName fieldName) := by
  have hunderscore : AreNameParts (if c.resolver.options.addUnderscoreToArgsType then "_"
      else "").toList := by
    split_ifs <;> exact areNameParts_of_all (by decide)
  have hargs : AreNameParts "Args".toList := areNameParts_of_all (by decide)
  have hfield : AreNameParts (c.resolver.convertName fieldName false false).toList := by
    rw [Resolver.convertName_alone]
    exact hconvert fieldName hf
  refine hc _ (append_ne_empty (by decide)) ?_ true true
  simp only [String.toList_append, areNameParts_append]
  exact ⟨⟨⟨ht, hunderscore⟩, hfield⟩, hargs⟩

theorem WritesNames.resolve (hP : TypeProperty P) {name : String} (h : IsName name) :
    P (c.resolver.resolve name) := by
  unfold Resolver.resolve Resolver.enumName Resolver.scalarReference
  split_ifs
  · exact hP.member "Scalars" (by decide) name h.areNameParts
  · exact hc.convertName h _ _
  · exact hc.convertName h true true

theorem WritesNames.resolveUnionMember (hP : TypeProperty P) {name : String} (h : IsName name) :
    P (c.resolver.resolveUnionMember name) := by
  unfold Resolver.resolveUnionMember Resolver.scalarReference
  split_ifs
  · exact hP.member "Scalars" (by decide) name h.areNameParts
  · exact hc.convertName h true true

theorem WritesNames.fieldLeaf (hP : TypeProperty P) {name : String} (h : IsName name) :
    P (c.fieldLeaf name) := by
  have hresolve := hc.resolve hP h
  unfold FoldContext.fieldLeaf
  split_ifs
  · exact hP.generic "FieldWrapper" (by decide) _ hresolve
  · exact hresolve

/-- The type of an argument or input field. -/
theorem WritesNames.typeText_inputProperty (hP : TypeProperty P) {v : InputValueDef}
    (hv : v.WellFormed) (input exact : Bool) : P ((c.inputProperty input v).typeText exact) := by
  have htype := hP.fragment input (hc.resolve hP hv.type)
  unfold Property.typeText
  split
  · next text heq =>
    obtain ⟨use, huse, rfl⟩ := Option.map_eq_some_iff.1 heq
    have hmem := List.mem_reverse.1 (List.mem_of_find?_eq_some huse)
    exact hP.member Fold.directiveContainer (by decide) use.name
      (hv.directives use hmem).areNameParts
  · split_ifs <;> exact hP.render htype

/-- The type of a field of an object or interface. -/
theorem WritesNames.typeText_fieldProperty (hP : TypeProperty P) {f : FieldDef}
    (hf : f.WellFormed) (exact : Bool) : P ((c.fieldProperty f).typeText exact) := by
  have htype := hP.fragment false (hc.fieldLeaf hP hf.type)
  unfold Property.typeText
  split
  · next text heq =>
    simp only [fieldProperty] at heq
    split_ifs at heq
    cases heq
    exact hP.generic "EntireFieldWrapper" (by decide) _ (hP.render htype)
  · split_ifs <;> exact hP.render htype

end

end FoldContext

end SdlTypes
