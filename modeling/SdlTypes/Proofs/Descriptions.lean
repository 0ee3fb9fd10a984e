import SdlTypes.Proofs.Tables
import SdlTypes.Proofs.TypeTexts

/-!
# Descriptions stay in comments

Two documents that differ in descriptions and deprecations alone give the same code.

`TypeDef.bare` is a definition without descriptions and without uses of `deprecated`. The fold
commutes with it (`FoldContext.typeResult_bare`): a bare definition becomes the statements of the
definition without their comments, or fails with the same error. What the fold gives is tidy
(`FoldContext.Tidy.typeResult`), so deleting the comments of the written statements leaves just
these bare ones (`Fold.map_withoutComments_texts`).
-/

namespace SdlTypes

open Sdl Text

/-! ## Definitions without descriptions -/

namespace Sdl

/-- The directives without the uses of `deprecated`. -/
def undeprecated (directives : List Directive) : List Directive :=
  directives.filter fun d => d.name ≠ "deprecated"

/-- The argument or input field without description and deprecation. -/
def InputValueDef.bare (v : InputValueDef) : InputValueDef :=
  { v with description := none, directives := undeprecated v.directives }

/-- The field without descriptions and deprecations. -/
def FieldDef.bare (f : FieldDef) : FieldDef :=
  { f with
    description := none
    arguments := f.arguments.map InputValueDef.bare
    directives := undeprecated f.directives }

/-- The enum value without description and deprecation. -/
def EnumValueDef.bare (v : EnumValueDef) : EnumValueDef :=
  { v with description := none, directives := undeprecated v.directives }

/-- The member without descriptions and deprecations. -/
def Member.bare : Member → Member
  | .field f => .field f.bare
  | .input v => .input v.bare

/-- The body without descriptions and deprecations. -/
def TypeBody.bare : TypeBody → TypeBody
  | .scalar => .scalar
  | .object is ms => .object is (ms.map Member.bare)
  | .interface is ms => .interface is (ms.map Member.bare)
  | .union ts => .union ts
  | .enum vs => .enum (vs.map EnumValueDef.bare)
  | .input ms => .input (ms.map Member.bare)

/-- The definition without descriptions and deprecations. -/
def TypeDef.bare (d : TypeDef) : TypeDef :=
  ⟨none, d.name, undeprecated d.directives, d.body.bare⟩

/-- The bare type definition that a definition is, if it is one. -/
def Definition.bareType? (d : Definition) : Option TypeDef :=
  d.typeDef?.map TypeDef.bare

namespace TypeDef

variable (d : TypeDef)

@[simp] theorem kind_bare : d.bare.kind = d.kind := by
  cases h : d.body <;> simp [bare, kind, TypeBody.bare, TypeBody.kind, h]

@[simp] theorem interfaces_bare : d.bare.body.interfaces = d.body.interfaces := by
  cases h : d.body <;> simp [bare, TypeBody.bare, TypeBody.interfaces, h]

@[simp] theorem members_bare : d.bare.body.members = d.body.members.map Member.bare := by
  cases h : d.body <;> simp [bare, TypeBody.bare, TypeBody.members, h]

@[simp] theorem types_bare : d.bare.body.types = d.body.types := by
  cases h : d.body <;> simp [bare, TypeBody.bare, TypeBody.types, h]

@[simp] theorem values_bare : d.bare.body.values = d.body.values.map EnumValueDef.bare := by
  cases h : d.body <;> simp [bare, TypeBody.bare, TypeBody.values, h]

end TypeDef

end Sdl

/-- A folded member without its comment. -/
def Property.bare (p : Property) : Property :=
  { p with comment := "" }

/-- A folded field without the comments of it and its arguments. -/
def FieldProperty.bare (f : FieldProperty) : FieldProperty :=
  { f with comment := "", arguments := f.arguments.map Property.bare }

/-! ## What descriptions and deprecations say -/

theorem marksOneOf_undeprecated (directives : List Directive) :
    Schema.marksOneOf (undeprecated directives) = Schema.marksOneOf directives := by
  rw [Schema.marksOneOf, Schema.marksOneOf, undeprecated, List.any_filter]
  congr 1
  funext d
  by_cases h : d.name = "oneOf" <;> simp [h]

theorem isOneOf_undeprecated (type : Option NamedType) (node : List Directive) :
    Schema.isOneOf type (undeprecated node) = Schema.isOneOf type node := by
  cases type <;> simp only [Schema.isOneOf, marksOneOf_undeprecated]

/-- Without description and deprecation there is no comment. -/
theorem ofMember_undeprecated (level : Nat) (directives : List Directive) :
    Comment.ofMember level none (undeprecated directives) = "" := by
  have hnone : Comment.deprecation? (undeprecated directives) = none := by
    rw [Comment.deprecation?, undeprecated, Option.map_eq_none_iff, List.find?_eq_none]
    intro d hd
    simpa using (List.mem_filter.1 hd).2
  rw [Comment.ofMember, Comment.memberText, hnone]
  rfl

namespace FoldContext

variable {c : FoldContext}

/-- Deprecations give no types unless they are configured to. -/
theorem directiveOverride_undeprecated (h : c.symbols.directives.contains "deprecated" = false)
    (directives : List Directive) :
    Fold.directiveOverride c (undeprecated directives) = Fold.directiveOverride c directives := by
  rw [Fold.directiveOverride, Fold.directiveOverride, undeprecated, ← List.filter_reverse,
    List.find?_filter]
  congr 2
  funext d
  by_cases hd : d.name = "deprecated" <;> simp [hd, h]

/-! ## The fold of bare definitions -/

theorem inputProperty_bare (h : c.symbols.directives.contains "deprecated" = false) (input : Bool)
    (v : InputValueDef) : c.inputProperty input v.bare = (c.inputProperty input v).bare := by
  have hcomment := ofMember_undeprecated 1 v.directives
  have hoverride := directiveOverride_undeprecated h v.directives
  exact congrArg₂ (Property.mk v.name (v.type.fragment input c.resolver.resolve)
    (Fold.isOptional c.options.avoidOptionals v) v.type.required) hcomment hoverride

theorem fieldProperty_bare (h : c.symbols.directives.contains "deprecated" = false) (f : FieldDef) :
    c.fieldProperty f.bare = (c.fieldProperty f).bare := by
  have hcomment := ofMember_undeprecated 1 f.directives
  have harguments : (f.arguments.map InputValueDef.bare).map (c.inputProperty false) =
      (f.arguments.map (c.inputProperty false)).map Property.bare := by
    rw [List.map_map, List.map_map]
    exact List.map_congr_left fun v _ => inputProperty_bare h false v
  exact congrArg₂ (fun comment arguments =>
    { c.fieldProperty f with comment := comment, arguments := arguments }) hcomment harguments

/-- Computations that commute with a change of elements do so one after another. -/
theorem mapM_map_of_commutes {ε α β : Type} {f : α → Except ε β} {g : α → α} {k : β → β}
    (h : ∀ x, f (g x) = (f x).map k) (l : List α) :
    (l.map g).mapM f = (l.mapM f).map (List.map k) := by
  rw [List.mapM_map, map_mapM]
  exact congrArg (fun r => l.mapM r) (funext h)

theorem fieldResult_bare (h : c.symbols.directives.contains "deprecated" = false) (m : Member) :
    c.fieldResult m.bare = (c.fieldResult m).map FieldProperty.bare := by
  cases m with
  | field f => exact congrArg Except.ok (fieldProperty_bare h f)
  | input v => rfl

theorem inputResult_bare (h : c.symbols.directives.contains "deprecated" = false)
    (typeName : String) (m : Member) :
    c.inputResult typeName m.bare = (c.inputResult typeName m).map Property.bare := by
  cases m with
  | field f => rfl
  | input v =>
    have hverdict (p : Property) : c.verdict typeName p.bare = c.verdict typeName p := rfl
    rw [Member.bare, inputResult, inputResult, inputProperty_bare h, hverdict]
    cases c.verdict typeName (c.inputProperty true v) <;> rfl

theorem argumentsDeclaration_bare (r : Resolver) (typeName : String) (f : FieldProperty) :
    Arguments.declaration r typeName f.bare = (Arguments.declaration r typeName f).bare := by
  rw [Arguments.declaration, Arguments.declaration, Declaration.bare, Body.bare,
    FieldProperty.bare, List.map_map, List.map_map]
  rfl

theorem argumentsDeclarations_bare (r : Resolver) (typeName : String)
    (fields : List FieldProperty) :
    Arguments.declarations r typeName (fields.map FieldProperty.bare) =
      (Arguments.declarations r typeName fields).map Declaration.bare := by
  have hnone (f : FieldProperty) : f.bare.arguments.isEmpty = f.arguments.isEmpty :=
    List.isEmpty_map
  unfold Arguments.declarations
  split_ifs
  · rfl
  · rw [List.filter_map, List.map_map, List.map_map]
    simp only [Function.comp_def, hnone, argumentsDeclaration_bare]

theorem withArguments_bare (d : TypeDef) (keyword : Keyword) {lines : List Line}
    (hlines : lines.map Line.bare = lines) (fields : List FieldProperty) :
    Fold.withArguments c d.bare keyword lines (fields.map FieldProperty.bare) =
      (Fold.withArguments c d keyword lines fields).map Statement.bare := by
  have hown : Fold.declaration c d.bare keyword (c.resolver.convertName d.bare.name)
      (.properties (d.bare.body.interfaces.map fun name => c.resolver.convertName name)
        (lines ++ (fields.map FieldProperty.bare).map fun f => Fold.memberLine c f.toProperty)) =
      (Fold.declaration c d keyword (c.resolver.convertName d.name)
        (.properties (d.body.interfaces.map fun name => c.resolver.convertName name)
          (lines ++ fields.map fun f => Fold.memberLine c f.toProperty))).bare := by
    rw [d.interfaces_bare, Fold.declaration, Fold.declaration, Declaration.bare, Body.bare,
      List.map_append, hlines, List.map_map, List.map_map]
    rfl
  have hname : d.bare.name = d.name := rfl
  rw [Fold.withArguments, hown, hname, argumentsDeclarations_bare, Fold.withArguments,
    List.map_map, ← List.map_cons, List.map_map]
  rfl

theorem objectStatements_bare (d : TypeDef) (fields : List FieldProperty) :
    c.objectStatements d.bare (fields.map FieldProperty.bare) =
      (c.objectStatements d fields).map Statement.bare := by
  have hline : (Fold.typenameLine c.options d.name).map Line.bare =
      Fold.typenameLine c.options d.name := by
    unfold Fold.typenameLine
    split_ifs <;> rfl
  unfold objectStatements
  split_ifs
  · rfl
  · exact withArguments_bare d .type hline fields

theorem interfaceStatements_bare (d : TypeDef) (fields : List FieldProperty) :
    c.interfaceStatements d.bare (fields.map FieldProperty.bare) =
      (c.interfaceStatements d fields).map Statement.bare := by
  have hnil : ([] : List Line).map Line.bare = [] := rfl
  unfold interfaceStatements
  rw [d.interfaces_bare]
  split_ifs
  · rfl
  all_goals exact withArguments_bare d _ hnil fields

theorem unionStatements_bare (d : TypeDef) :
    c.unionStatements d.bare = (c.unionStatements d).map Statement.bare := by
  have hmembers : c.unionMembers d.bare = c.unionMembers d := by
    rw [unionMembers, unionMembers, d.types_bare]
  unfold unionStatements
  rw [hmembers]
  split_ifs <;> rfl

theorem arms_bare (typeName : String) (ps : List Property) (readonly : Bool) :
    OneOf.arms typeName (ps.map Property.bare) readonly =
      (OneOf.arms typeName ps readonly).map (List.map OneOf.Arm.bare) := by
  have hcheck : (ps.map Property.bare).forM (OneOf.checkNullable typeName) =
      ps.forM (OneOf.checkNullable typeName) := by
    induction ps with
    | nil => rfl
    | cons p ps ih =>
      rw [List.map_cons, forM_cons_eq_bind, forM_cons_eq_bind, ih]
      rfl
  have harm (p : Property) : OneOf.arm p.bare (ps.map Property.bare) readonly =
      (OneOf.arm p ps readonly).bare := by
    rw [OneOf.arm, OneOf.arm, OneOf.Arm.bare, List.map_map]
    rfl
  have harms : ((ps.map Property.bare).map fun p => OneOf.arm p (ps.map Property.bare) readonly) =
      (ps.map fun p => OneOf.arm p ps readonly).map OneOf.Arm.bare := by
    rw [List.map_map, List.map_map]
    exact List.map_congr_left fun p _ => harm p
  rw [OneOf.arms, OneOf.arms, hcheck, harms]
  cases ps.forM (OneOf.checkNullable typeName) <;> rfl

theorem inputBody_bare (d : TypeDef) (ps : List Property) :
    c.inputBody d.bare (ps.map Property.bare) = (c.inputBody d ps).map Body.bare := by
  have hmark : Schema.isOneOf (c.schema.find? d.bare.name) d.bare.directives =
      Schema.isOneOf (c.schema.find? d.name) d.directives := isOneOf_undeprecated _ _
  have hname : d.bare.name = d.name := rfl
  rw [inputBody, inputBody, hmark, hname, arms_bare]
  split_ifs
  · cases OneOf.arms d.name ps c.options.immutableTypes <;> rfl
  · rw [Except.map, Body.bare, List.map_map, List.map_map]
    rfl

theorem inputStatements_bare (d : TypeDef) (ps : List Property) :
    c.inputStatements d.bare (ps.map Property.bare) =
      (c.inputStatements d ps).map (List.map Statement.bare) := by
  unfold inputStatements
  rw [inputBody_bare]
  split_ifs
  · rfl
  · cases c.inputBody d ps <;> rfl

theorem enumStatements_bare (d : TypeDef) :
    c.enumStatements d.bare = (c.enumStatements d).map Statement.bare := by
  have hvalue (symbol : Option EnumSymbol) (v : EnumValueDef) :
      Fold.enumerator c symbol v.bare = (Fold.enumerator c symbol v).bare :=
    congrArg (Enumerator.mk · (c.resolver.convertName v.name false false)
      (Fold.constantValue symbol v.name)) (ofMember_undeprecated 1 v.directives)
  have hvalues : c.enumerators d.bare = (c.enumerators d).map Enumerator.bare := by
    rw [enumerators, enumerators, d.values_bare, List.map_map, List.map_map]
    exact List.map_congr_left fun v _ => hvalue _ v
  have hdeclaration : c.enumDeclaration d.bare = (c.enumDeclaration d).bare := by
    unfold enumDeclaration
    rw [hvalues]
    split_ifs <;> rfl
  have hname : d.bare.name = d.name := rfl
  unfold enumStatements
  rw [hdeclaration, hname]
  split
  · split_ifs <;> rfl
  · rfl

/-- A bare definition becomes what the definition becomes, without comments. -/
theorem typeResult_bare (h : c.symbols.directives.contains "deprecated" = false) (d : TypeDef) :
    c.typeResult d.bare = (c.typeResult d).map (List.map Statement.bare) := by
  have hfields := mapM_map_of_commutes (fieldResult_bare h) d.body.members
  have hinputs := mapM_map_of_commutes (inputResult_bare h d.name) d.body.members
  rw [typeResult, typeResult, d.kind_bare, d.members_bare]
  cases d.kind with
  | object =>
    dsimp only
    rw [hfields]
    cases d.body.members.mapM c.fieldResult with
    | error e => rfl
    | ok fields => exact congrArg Except.ok (objectStatements_bare d fields)
  | interface =>
    dsimp only
    rw [hfields]
    cases d.body.members.mapM c.fieldResult with
    | error e => rfl
    | ok fields => exact congrArg Except.ok (interfaceStatements_bare d fields)
  | union => exact congrArg Except.ok (unionStatements_bare d)
  | enum => exact congrArg Except.ok (enumStatements_bare d)
  | input =>
    have hname : d.bare.name = d.name := rfl
    dsimp only
    rw [hname, hinputs]
    cases d.body.members.mapM (c.inputResult d.name) with
    | error e => rfl
    | ok ps => exact inputStatements_bare d ps
  | scalar => rfl

end FoldContext

/-! ## Names without slashes -/

/-- The constants that are given to the values of an enum. -/
def EnumSymbol.mappedValues (e : EnumSymbol) : List Constant :=
  match e.target with
  | .constants values => values.values
  | _ => []

/-- A constant that is no text with a slash in it. -/
def Constant.SlashFree (v : Constant) : Prop :=
  ∀ text, v = .text text → Text.SlashFree text

theorem Constant.slashFree_literal {v : Constant} (h : v.SlashFree) :
    Text.SlashFree v.literal := by
  cases v with
  | text value =>
    have hescape (mark : Char) (s : List Char) (hs : '/' ∉ s) : '/' ∉ Text.escape mark s := by
      intro hmem
      obtain ⟨c, hc, hmem⟩ := List.mem_flatMap.1 hmem
      split_ifs at hmem
      · simp only [List.mem_cons, List.not_mem_nil, or_false] at hmem
        rcases hmem with hmem | rfl
        · exact absurd hmem (by decide)
        · exact hs hc
      · exact hs (List.mem_singleton.1 hmem ▸ hc)
    rw [literal, Text.quoted, slashFree_append, slashFree_append]
    refine ⟨⟨by decide, ?_⟩, by decide⟩
    rw [Text.SlashFree, String.toList_ofList]
    exact hescape _ _ (hescape _ _ (h value rfl))
  | int value =>
    have hnat (n : Nat) : Text.SlashFree n.repr := by
      rw [Text.SlashFree, Nat.repr, String.toList_ofList]
      exact fun hmem => absurd
        (Nat.isDigit_of_mem_toDigits (by decide : 0 < 10) (by decide) hmem) (by decide)
    rw [literal]
    unfold Int.repr
    split
    · exact hnat _
    · exact slashFree_append.2 ⟨by decide, hnat _⟩
  | bool value => cases value <;> decide

/-- What a run looks up gives no slashes for names without slashes. -/
structure FoldContext.Tidy (c : FoldContext) : Prop where
  convert : ∀ s : String, AreNameParts s.toList → AreNameParts (c.resolver.convert s).toList
  before : SlashFree c.options.typesPrefix
  after : SlashFree c.options.typesSuffix
  identifier : ∀ name e, c.symbols.enums.find? name = some e → AreNameParts name.toList →
    SlashFree e.identifier
  values : ∀ name e, c.symbols.enums.find? name = some e → ∀ v ∈ e.mappedValues, v.SlashFree

namespace FoldContext.Tidy

variable {c : FoldContext} (hc : c.Tidy)

include hc

theorem slashFree_convertName {name : String} (h : AreNameParts name.toList)
    (before after : Bool) : SlashFree (c.resolver.convertName name before after) :=
  Resolver.notMem_convertName hc.before hc.after (hc.convert name h).slashFree before after

theorem writesNames : c.WritesNames SlashFree :=
  fun _ _ h before after => hc.slashFree_convertName h before after

end FoldContext.Tidy

/-! ## Tidy members -/

/-- A member with a comment and a name, and no slashes besides. -/
structure Property.Tidy (p : Property) : Prop where
  comment : IsComment p.comment
  name : AreNameParts p.name.toList
  type : SlashFree p.type.text
  override : ∀ text ∈ p.override, SlashFree text

/-- A field that is tidy with its arguments. -/
structure FieldProperty.Tidy (f : FieldProperty) : Prop where
  property : f.toProperty.Tidy
  arguments : ∀ a ∈ f.arguments, a.Tidy

theorem Property.Tidy.line {p : Property} (h : p.Tidy) (readonly exact : Bool) :
    (p.line readonly exact).Tidy where
  comment := h.comment
  name := h.name.slashFree
  type := by
    change SlashFree (p.typeText exact)
    unfold Property.typeText
    split
    · next text heq => exact h.override text heq
    · exact slashFree_ite (typeProperty_slashFree.render h.type)
        (typeProperty_slashFree.render h.type)

namespace FoldContext.Tidy

variable {c : FoldContext} (hc : c.Tidy)

include hc

theorem inputProperty {v : InputValueDef} (hv : v.WellFormed) (input : Bool) :
    (c.inputProperty input v).Tidy where
  comment := isComment_ofMember _ _ _
  name := hv.name.areNameParts
  type := typeProperty_slashFree.fragment input
    (hc.writesNames.resolve typeProperty_slashFree hv.type)
  override := by
    intro text htext
    obtain ⟨use, huse, rfl⟩ := Option.map_eq_some_iff.1 htext
    have hmem := List.mem_reverse.1 (List.mem_of_find?_eq_some huse)
    exact typeProperty_slashFree.member Fold.directiveContainer (by decide) use.name
      (hv.directives use hmem).areNameParts

theorem fieldProperty {f : FieldDef} (hf : f.WellFormed) : (c.fieldProperty f).Tidy := by
  have htype : SlashFree (c.fieldProperty f).type.text :=
    typeProperty_slashFree.fragment false (hc.writesNames.fieldLeaf typeProperty_slashFree hf.type)
  refine ⟨⟨isComment_ofMember _ _ _, hf.name.areNameParts, htype, ?_⟩, ?_⟩
  · intro text htext
    simp only [FoldContext.fieldProperty] at htext
    split_ifs at htext
    · cases htext
      exact typeProperty_slashFree.generic "EntireFieldWrapper" (by decide) _
        (typeProperty_slashFree.render htype)
    · cases htext
  · exact List.forall_mem_map.2 fun v hv => hc.inputProperty (hf.arguments v hv) false

end FoldContext.Tidy

/-! ## Tidy statements -/

theorem OneOf.tidy_arm {ps : List Property} (hps : ∀ p ∈ ps, p.Tidy) {p : Property} (hp : p.Tidy)
    (readonly : Bool) : (OneOf.arm p ps readonly).Tidy where
  comment := hp.comment
  chosen := Line.slashFree_signature (hp.line readonly true).name (hp.line readonly true).type
  excluded := by
    intro name hname
    obtain ⟨q, hq, rfl⟩ := List.mem_map.1 (List.mem_filter.1 hname).1
    exact (hps q hq).name.slashFree

/-- The property that tells objects apart is tidy. -/
theorem tidy_typenameLine {d : TypeDef} (hd : d.Spelled) (o : Options) :
    ∀ l ∈ Fold.typenameLine o d.name, l.Tidy := by
  intro l hl
  unfold Fold.typenameLine at hl
  split_ifs at hl
  · cases hl
  · rw [List.mem_singleton.1 hl]
    have hname : SlashFree "__typename" := by decide
    refine ⟨isComment_empty, hname, ?_⟩
    rw [slashFree_append, slashFree_append]
    exact ⟨⟨by decide, hd.name.areNameParts.slashFree⟩, by decide⟩

theorem FoldContext.tidy_of_inputBody {c : FoldContext} {d : TypeDef} {ps : List Property}
    (hps : ∀ p ∈ ps, p.Tidy) {body : Body} (h : c.inputBody d ps = .ok body) : body.Tidy := by
  rcases eq_of_inputBody h with rfl | rfl
  · exact List.forall_mem_map.2 fun p hp => OneOf.tidy_arm hps (hps p hp) _
  · exact ⟨List.forall_mem_nil _, List.forall_mem_map.2 fun p hp => (hps p hp).line _ _⟩

namespace FoldContext.Tidy

variable {c : FoldContext} (hc : c.Tidy)

include hc

theorem argumentsDeclaration {typeName : String} (ht : AreNameParts typeName.toList)
    {f : FieldProperty} (hf : f.Tidy) :
    (Arguments.declaration c.resolver typeName f).Tidy where
  name := hc.writesNames.argumentsTypeName hc.convert ht hf.property.name
  body := ⟨List.forall_mem_nil _, List.forall_mem_map.2 fun a ha => (hf.arguments a ha).line _ _⟩

theorem withArguments {d : TypeDef} (hd : d.Spelled) (keyword : Keyword) {lines : List Line}
    (hlines : ∀ l ∈ lines, l.Tidy) {fields : List FieldProperty} (hfields : ∀ f ∈ fields, f.Tidy) :
    ∀ x ∈ Fold.withArguments c d keyword lines fields, x.Tidy := by
  refine List.forall_mem_map.2 (List.forall_mem_cons.2 ⟨?_, ?_⟩)
  · refine ⟨hc.slashFree_convertName hd.name.areNameParts true true, ?_, ?_⟩
    · exact List.forall_mem_map.2 fun name hname =>
        hc.slashFree_convertName (hd.interfaces name hname).areNameParts true true
    · exact List.forall_mem_append.2
        ⟨hlines, List.forall_mem_map.2 fun f hf => (hfields f hf).property.line _ _⟩
  · intro x hx
    unfold Arguments.declarations at hx
    split_ifs at hx
    · cases hx
    · obtain ⟨f, hf, rfl⟩ := List.mem_map.1 hx
      exact hc.argumentsDeclaration hd.name.areNameParts (hfields f (List.mem_filter.1 hf).1)

theorem objectStatements {d : TypeDef} (hd : d.Spelled) {fields : List FieldProperty}
    (hfields : ∀ f ∈ fields, f.Tidy) : ∀ x ∈ c.objectStatements d fields, x.Tidy := by
  unfold FoldContext.objectStatements
  split_ifs
  · exact List.forall_mem_nil _
  · exact hc.withArguments hd .type (tidy_typenameLine hd c.options) hfields

theorem interfaceStatements {d : TypeDef} (hd : d.Spelled) {fields : List FieldProperty}
    (hfields : ∀ f ∈ fields, f.Tidy) : ∀ x ∈ c.interfaceStatements d fields, x.Tidy := by
  unfold FoldContext.interfaceStatements
  split_ifs
  · exact List.forall_mem_nil _
  all_goals exact hc.withArguments hd _ (List.forall_mem_nil _) hfields

theorem unionStatements {d : TypeDef} (hd : d.Spelled) :
    ∀ x ∈ c.unionStatements d, x.Tidy := by
  have hmembers : ∀ m ∈ c.unionMembers d, SlashFree m.text := by
    refine List.forall_mem_append.2 ⟨List.forall_mem_map.2 fun name hname => ?_, fun m hm => ?_⟩
    · exact hc.writesNames.resolveUnionMember typeProperty_slashFree (hd.types name hname)
    · split_ifs at hm
      · rw [List.mem_singleton.1 hm, UnionMember.text, slashFree_append, slashFree_append]
        exact ⟨⟨by decide, slashFree_modifier _⟩, by decide⟩
      · cases hm
  unfold FoldContext.unionStatements
  split_ifs
  · exact List.forall_mem_nil _
  · refine List.forall_mem_singleton.2 ⟨?_, hmembers⟩
    exact hc.slashFree_convertName hd.name.areNameParts true true

theorem enumStatements {d : TypeDef} (hd : d.Spelled) : ∀ x ∈ c.enumStatements d, x.Tidy := by
  have hname := hc.slashFree_convertName hd.name.areNameParts c.options.enumPrefix
    c.options.enumSuffix
  have hvalue (name : String) (hn : AreNameParts name.toList) :
      SlashFree (Fold.constantValue (c.symbols.enums.find? d.name) name).literal := by
    have htext : (Constant.text name).SlashFree := by
      rintro text ⟨rfl⟩
      exact hn.slashFree
    refine Constant.slashFree_literal ?_
    unfold Fold.constantValue
    cases hfind : c.symbols.enums.find? d.name with
    | none => exact htext
    | some e =>
      rw [Option.bind_some, EnumSymbol.constant?]
      split
      · next values htarget =>
        cases hvalue : values.find? name with
        | none => exact htext
        | some v =>
          refine hc.values d.name e hfind v ?_
          rw [EnumSymbol.mappedValues, htarget]
          exact List.mem_map_of_mem (OrderedMap.mem_entries_of_find? hvalue)
      · exact htext
  have hvalues : ∀ e ∈ c.enumerators d, e.Tidy := by
    refine List.forall_mem_map.2 fun v hv => ⟨isComment_ofMember _ _ _, ?_, ?_⟩
    · exact hc.slashFree_convertName (hd.values v hv).areNameParts false false
    · exact hvalue v.name (hd.values v hv).areNameParts
  unfold FoldContext.enumStatements
  split
  · next e heq =>
    split_ifs
    · exact List.forall_mem_nil _
    · have hfind := (Option.filter_eq_some_iff.1 heq).1
      exact List.forall_mem_singleton.2
        (hc.identifier d.name e hfind hd.name.areNameParts)
  · refine List.forall_mem_singleton.2 ?_
    unfold enumDeclaration
    split_ifs <;> exact ⟨hname, hvalues⟩

/-- What a type definition becomes is tidy. -/
theorem typeResult {d : TypeDef} (hd : d.Spelled) {statements : List Statement}
    (h : c.typeResult d = .ok statements) : ∀ x ∈ statements, x.Tidy := by
  have hfields {fs : List FieldDef} (hfs : d.body.members = fs.map Member.field) :
      ∀ f ∈ fs.map c.fieldProperty, f.Tidy :=
    List.forall_mem_map.2 fun f hf =>
      hc.fieldProperty (hd.members (.field f) (hfs ▸ List.mem_map_of_mem hf))
  cases becomes_of_typeResult h with
  | object _ hfs => exact hc.objectStatements hd (hfields hfs)
  | interface _ hfs => exact hc.interfaceStatements hd (hfields hfs)
  | union => exact hc.unionStatements hd
  | enum => exact hc.enumStatements hd
  | input _ hvs hbody =>
    have hinputs := List.forall_mem_map.2 fun v hv =>
      hc.inputProperty (hd.members (.input v) (hvs ▸ List.mem_map_of_mem hv)) true
    exact List.forall_mem_singleton.2
      ⟨hc.slashFree_convertName hd.name.areNameParts true true, tidy_of_inputBody hinputs hbody⟩
  | hidden => exact List.forall_mem_nil _

end FoldContext.Tidy

/-! ## Folded texts -/

/-- A document in whose type definitions names are spelled as names. -/
def Sdl.Document.Spelled (d : Document) : Prop :=
  ∀ t ∈ d.types, t.Spelled

/-- Texts without their comments are those of the statements without comments. -/
theorem map_withoutComments_nonemptyTexts {definitions : List (List Statement)}
    (h : ∀ statements ∈ definitions, ∀ x ∈ statements, x.Tidy) :
    (nonemptyTexts definitions).map withoutComments =
      nonemptyTexts (definitions.map (List.map Statement.bare)) := by
  have hsame : ((fun text => decide (text ≠ "")) ∘ statementsText) ∘ List.map Statement.bare =
      (fun text => decide (text ≠ "")) ∘ statementsText := by
    funext statements
    simp only [Function.comp_apply, ne_eq, statementsText_eq_empty_iff, List.map_eq_nil_iff]
  rw [nonemptyTexts, nonemptyTexts, List.map_map, List.filter_map, List.filter_map, List.map_map,
    ← Function.comp_assoc, hsame]
  refine List.map_congr_left fun statements hmem => ?_
  exact withoutComments_statementsText (h statements (List.mem_filter.1 hmem).1)

namespace Fold

variable {c : FoldContext}

/-- What a bare type definition becomes, or what is no type definition. -/
def bareResult (c : FoldContext) : Option TypeDef → Except FoldError (List Statement)
  | some t => c.typeResult t
  | none => .ok []

theorem map_bare_result (h : c.symbols.directives.contains "deprecated" = false)
    (d : Definition) :
    (c.result d).map (List.map Statement.bare) = bareResult c d.bareType? := by
  cases d with
  | type d => exact (FoldContext.typeResult_bare h d).symm
  | _ => rfl

/-- The texts of a document without their comments come from its bare types. -/
theorem map_withoutComments_texts (hc : c.Tidy)
    (h : c.symbols.directives.contains "deprecated" = false) {d : Document} (hd : d.Spelled) :
    (texts c d).map (List.map withoutComments) =
      ((d.definitions.map Definition.bareType?).mapM (bareResult c)).map nonemptyTexts := by
  have hbare : (d.definitions.mapM c.result).map (List.map (List.map Statement.bare)) =
      (d.definitions.map Definition.bareType?).mapM (bareResult c) := by
    rw [map_mapM, List.mapM_map]
    exact congrArg (fun r => d.definitions.mapM r) (funext (map_bare_result h))
  rw [← hbare, texts, outcome_document]
  cases hmap : d.definitions.mapM c.result with
  | error e => rfl
  | ok definitions =>
    refine congrArg Except.ok (map_withoutComments_nonemptyTexts fun statements hmem => ?_)
    obtain ⟨definition, hdefinition, hresult⟩ := exists_of_mem_mapM hmap hmem
    cases definition with
    | type t => exact hc.typeResult (hd t (List.mem_filterMap.2 ⟨_, hdefinition, rfl⟩)) hresult
    | _ =>
      cases hresult
      exact List.forall_mem_nil _

/-- What the tables of a run give is tidy if prefix, suffix and mapped values are. -/
theorem tidy_ofTables {s : Schema} {o : Options} {convert : String → String}
    {symbols : SymbolTables} (hconvert : SymbolTables.conversion o none = .ok convert)
    (hsymbols : SymbolTables.build s o (some convert) = .ok symbols)
    (hbefore : SlashFree o.typesPrefix) (hafter : SlashFree o.typesSuffix)
    (hvalues : ∀ e ∈ symbols.enums.values, ∀ v ∈ e.mappedValues, v.SlashFree) :
    (FoldContext.ofTables s o symbols convert).Tidy := by
  have hnames : ∀ s : String, AreNameParts s.toList → AreNameParts (convert s).toList := by
    obtain ⟨convention, -, rfl⟩ := exists_of_map hconvert
    exact fun s => convention.areNameParts_apply
  refine ⟨hnames, hbefore, hafter, fun name e hfind hname => ?_, fun name e hfind => ?_⟩
  · have henums := (SymbolTables.eq_of_build hsymbols).2.1
    rw [Enums.identifier_of_table henums (OrderedMap.mem_entries_of_find? hfind),
      Enums.identifier, Naming.affixed, slashFree_append, slashFree_append]
    exact ⟨⟨slashFree_ite hbefore (by decide), (hnames name hname).slashFree⟩,
      slashFree_ite hafter (by decide)⟩
  · exact hvalues e (List.mem_map_of_mem (OrderedMap.mem_entries_of_find? hfind))

/-- Descriptions and deprecations never leak into code: two documents whose type definitions
differ in nothing else are folded to texts that differ in comments alone, or fail with the same
error. -/
theorem withoutComments_texts_eq {s : Schema} {o : Options} {convert : String → String}
    {symbols : SymbolTables} (hconvert : SymbolTables.conversion o none = .ok convert)
    (hsymbols : SymbolTables.build s o (some convert) = .ok symbols)
    (hmapping : "deprecated" ∉ o.directiveMappings.keys)
    (hbefore : SlashFree o.typesPrefix) (hafter : SlashFree o.typesSuffix)
    (hvalues : ∀ e ∈ symbols.enums.values, ∀ v ∈ e.mappedValues, v.SlashFree)
    {d d' : Document} (hd : d.Spelled) (hd' : d'.Spelled)
    (hsame : d.definitions.map Definition.bareType? = d'.definitions.map Definition.bareType?) :
    (texts (.ofTables s o symbols convert) d).map (List.map withoutComments) =
      (texts (.ofTables s o symbols convert) d').map (List.map withoutComments) := by
  have htidy := tidy_ofTables hconvert hsymbols hbefore hafter hvalues
  have hdirectives : symbols.directives.contains "deprecated" = false := by
    rw [(SymbolTables.eq_of_build hsymbols).2.2, Bool.eq_false_iff, Ne,
      OrderedMap.contains_iff, SymbolTables.directiveTable, OrderedMap.keys_mapWithKey]
    exact hmapping
  rw [map_withoutComments_texts htidy hdirectives hd,
    map_withoutComments_texts htidy hdirectives hd', hsame]

/-- A document of one object with an argument, all with one description and some directives. -/
def describedDocument (description : Option String) (uses : List Directive) : Document :=
  ⟨[.type ⟨description, "A", [], .object []
    [.field ⟨description, "b", [⟨description, "a", .named "Int" false, none, uses⟩],
      .named "Int" false, uses⟩]⟩]⟩

theorem spelled_describedDocument (description : Option String) {uses : List Directive}
    (h : ∀ use ∈ uses, IsName use.name) : (describedDocument description uses).Spelled := by
  have hletter : ∀ c, Token.isNameStart c → IsName (String.ofList [c]) := fun c hc =>
    ⟨c, [], String.toList_ofList, hc, List.forall_mem_nil _⟩
  have hInt : IsName "Int" := ⟨'I', ['n', 't'], rfl, by decide, areNameParts_of_all (by decide)⟩
  have hargument : InputValueDef.WellFormed
      ⟨description, "a", .named "Int" false, none, uses⟩ := ⟨hletter 'a' (by decide), hInt, h⟩
  refine List.forall_mem_singleton.2 ⟨hletter 'A' (by decide), List.forall_mem_nil _, ?_,
    List.forall_mem_nil _, List.forall_mem_nil _⟩
  exact List.forall_mem_singleton.2
    ⟨hletter 'b' (by decide), List.forall_mem_singleton.2 hargument, hInt⟩

/-- A description that seems to end its comment, and a deprecation without a reason. -/
theorem withoutComments_texts_eq_hostile :
    ∃ symbols, SymbolTables.build (Schema.ofDocument (describedDocument none [])) {}
        (some Convention.keep.apply) = .ok symbols ∧
      (texts (.ofTables (Schema.ofDocument (describedDocument none [])) {} symbols
          Convention.keep.apply)
        (describedDocument (some "*/ c: any; /**") [⟨"deprecated", []⟩])).map
          (List.map withoutComments) =
        (texts (.ofTables (Schema.ofDocument (describedDocument none [])) {} symbols
          Convention.keep.apply) (describedDocument none [])).map (List.map withoutComments) := by
  have hbuild : (SymbolTables.build (Schema.ofDocument (describedDocument none [])) {}
      (some Convention.keep.apply)).toOption.any fun symbols => symbols.enums.isEmpty := by
    decide +kernel
  obtain ⟨symbols, hsymbols, henums⟩ := (Option.any_eq_true _ _).1 hbuild
  have hvalues : symbols.enums.values = [] := by
    rw [OrderedMap.values, List.isEmpty_iff.1 henums]
    rfl
  have hdeprecated : IsName "deprecated" :=
    ⟨'d', "eprecated".toList, rfl, by decide, areNameParts_of_all (by decide)⟩
  refine ⟨symbols, eq_ok_of_toOption hsymbols, ?_⟩
  exact withoutComments_texts_eq rfl (eq_ok_of_toOption hsymbols) List.not_mem_nil (by decide)
    (by decide) (by rw [hvalues]; exact List.forall_mem_nil _)
    (spelled_describedDocument _ (List.forall_mem_singleton.2 hdeprecated))
    (spelled_describedDocument _ (List.forall_mem_nil _)) rfl

end Fold

end SdlTypes
