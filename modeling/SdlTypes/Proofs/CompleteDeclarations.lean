import SdlTypes.Proofs.CompleteTexts
import SdlTypes.Proofs.DeclaredNames
import SdlTypes.Proofs.OneOfArms
import SdlTypes.Proofs.Rejection

/-!
# Complete declarations

What definitions become is complete, whatever kind they are of and however many members they have.
`FoldContext.isSound_typeResult` goes through the kinds: the types of properties are texts of types
as soon as converted names are words, and then each body is put together in one of the ways that
give a complete text.

`FoldContext.isComplete_iff` says so of every definition under the convention that keeps names.
There is one exception, `FoldContext.LacksArms`: an enum without values that is written as a union is
equal to nothing, where an input object that takes one of no fields is equal to `never`.
-/

namespace SdlTypes

open Sdl Text

/-! ## Folded definitions -/

/-- A statement of a word that is complete without its comments. -/
def Statement.IsSound (x : Statement) : Prop :=
  IsWord x.name ∧ x.Completes

/-- A folded member with a comment, a name, and the type of a property. -/
structure Property.IsTyped (p : Property) : Prop where
  comment : IsComment p.comment
  name : AreNameParts p.name.toList
  type : ∀ exact, IsTypeText (p.typeText exact)

theorem Property.IsTyped.line {p : Property} (h : p.IsTyped) (readonly exact : Bool) :
    (p.line readonly exact).IsTyped where
  comment := h.comment
  name := h.name.areIdentifierParts
  type := h.type exact

theorem Line.isCode_piece {l : Line} (hname : AreIdentifierParts l.name.toList)
    (htype : IsCode l.type.toList) : IsCode l.piece.toList := by
  rw [piece, String.toList_append]
  exact (isCode_key l.readonly hname l.optional).append htype

theorem OneOf.isTyped_arm {ps : List Property} (hps : ∀ p ∈ ps, p.IsTyped) {p : Property}
    (hp : p.IsTyped) (readonly : Bool) : (OneOf.arm p ps readonly).IsTyped where
  comment := hp.comment
  object := by
    have hchosen : IsTypeText (chosenType p) := typeText_exact p ▸ hp.type true
    have hpieces : ∀ l ∈ armLines p ps readonly, IsCode l.piece.toList := by
      refine List.forall_mem_cons.2 ⟨?_, List.forall_mem_map.2 fun q hq => ?_⟩
      · exact Line.isCode_piece hp.name.areIdentifierParts hchosen.code
      · have hname := (hps q (List.mem_of_mem_filter hq)).name.areIdentifierParts
        exact Line.isCode_piece hname isTypeText_never.code
    have hblank : IsCode " ".toList := .of_plain (by decide)
    have hjoin : IsCode (Text.join "; " ((armLines p ps readonly).map Line.piece)).toList :=
      .join (.of_plain (by decide)) (List.forall_mem_map.2 hpieces)
    have hgroup := IsCode.enclose (by decide : ('\x7b', '\x7d') ∈ brackets)
      ((hblank.append hjoin).append hblank)
    rw [object_arm hchosen.semicolon]
    simpa [String.toList_append] using hgroup

namespace FoldContext

variable {c : FoldContext}

/-- The members of unions, with the object type for what may be added. -/
theorem isCode_unionMember (hc : c.WritesNames IsTypeText) {d : TypeDef} (hd : d.Spelled) :
    ∀ m ∈ c.unionMembers d, IsCode m.text.toList ∧ HasInk m.text ∧ '\n' ∉ m.text.toList := by
  refine List.forall_mem_append.2 ⟨List.forall_mem_map.2 fun name hname => ?_, fun m hm => ?_⟩
  · have htype := hc.resolveUnionMember typeProperty_isTypeText (hd.types name hname)
    exact ⟨htype.code, htype.ink, htype.line⟩
  · have hother (readonly : Bool) :
        IsCode (" " ++ Line.modifier readonly ++ "__typename?: ").toList := by
      refine .of_plain ?_
      cases readonly <;> decide
    have hliteral : IsCode ('"' :: ("%other".toList ++ ['"'])) :=
      .quote _ (by decide) (.of_plain (by decide))
    have hblank : IsCode [' '] := .of_plain (by decide)
    split_ifs at hm
    · rw [List.mem_singleton.1 hm]
      refine ⟨?_, ?_, ?_⟩
      · have hgroup := IsCode.enclose (by decide : ('\x7b', '\x7d') ∈ brackets)
          (((hother c.options.immutableTypes).append hliteral).append hblank)
        simpa [UnionMember.text, String.toList_append] using hgroup
      · have hbrace : HasInk "\x7b " := ⟨'\x7b', by decide⟩
        exact (hbrace.append _).append _
      · cases c.options.immutableTypes <;> decide
    · cases hm

theorem isTyped_inputProperty (hc : c.WritesNames IsTypeText) {v : InputValueDef}
    (hv : v.WellFormed) (input : Bool) : (c.inputProperty input v).IsTyped where
  comment := isComment_ofMember _ _ _
  name := hv.name.areNameParts
  type := hc.typeText_inputProperty typeProperty_isTypeText hv input

theorem isTyped_fieldProperty (hc : c.WritesNames IsTypeText) {f : FieldDef} (hf : f.WellFormed) :
    (c.fieldProperty f).IsTyped ∧ ∀ a ∈ (c.fieldProperty f).arguments, a.IsTyped := by
  refine ⟨⟨isComment_ofMember _ _ _, hf.name.areNameParts,
    hc.typeText_fieldProperty typeProperty_isTypeText hf⟩, ?_⟩
  exact List.forall_mem_map.2 fun v hv => isTyped_inputProperty hc (hf.arguments v hv) false

/-- The declaration of an object or interface, and those of its arguments. -/
theorem isSound_withArguments (hc : c.WritesNames IsWord)
    (hconvert : ∀ s : String, AreNameParts s.toList → AreNameParts (c.resolver.convert s).toList)
    {d : TypeDef} (hd : d.Spelled) {keyword : Keyword}
    (hkeyword : keyword = .type ∨ keyword = .interface ∧ d.body.interfaces = [])
    {lines : List Line} (hlines : ∀ l ∈ lines, l.IsTyped) {fields : List FieldProperty}
    (hfields : ∀ f ∈ fields, f.toProperty.IsTyped ∧ ∀ a ∈ f.arguments, a.IsTyped) :
    ∀ x ∈ Fold.withArguments c d keyword lines fields, x.IsSound := by
  refine List.forall_mem_map.2 (List.forall_mem_cons.2 ⟨?_, fun x hx => ?_⟩)
  · have hname := hc.convertName hd.name true true
    refine ⟨hname, Declaration.completes_of_properties rfl hname ?_ ?_ ?_⟩
    · exact hkeyword.imp_right fun h => ⟨h.1, by rw [h.2]; rfl⟩
    · exact List.forall_mem_map.2 fun name hi => hc.convertName (hd.interfaces name hi) true true
    · exact List.forall_mem_append.2
        ⟨hlines, List.forall_mem_map.2 fun f hf => (hfields f hf).1.line _ _⟩
  · unfold Arguments.declarations at hx
    split_ifs at hx
    · cases hx
    · obtain ⟨f, hf, rfl⟩ := List.mem_map.1 hx
      obtain ⟨hfield, harguments⟩ := hfields f (List.mem_filter.1 hf).1
      have hname := hc.argumentsTypeName hconvert hd.name.areNameParts hfield.name
      exact ⟨hname, Declaration.completes_of_properties rfl hname (.inl rfl) (List.forall_mem_nil _)
        (List.forall_mem_map.2 fun a ha => (harguments a ha).line _ _)⟩

theorem isTyped_typenameLine {d : TypeDef} (hd : d.Spelled) :
    ∀ l ∈ Fold.typenameLine c.options d.name, l.IsTyped := by
  intro l hl
  unfold Fold.typenameLine at hl
  split_ifs at hl
  · cases hl
  · rw [List.mem_singleton.1 hl]
    have hname := hd.name.areNameParts
    have hparts := hname.areIdentifierParts
    have hquote : IsCode ('\'' :: (d.name.toList ++ ['\''])) := .quote _ (by decide) hname.literalBody
    have hink : HasInk "'" := ⟨'\'', by decide⟩
    have htypename : AreIdentifierParts "__typename".toList := by decide
    refine ⟨isComment_empty, htypename, ?_, (hink.append _).append _, ?_, ?_⟩
    · simpa [String.toList_append] using hquote
    · simpa [String.toList_append] using hparts.notMem (c := '\n') (by decide)
    · simpa [String.toList_append] using hparts.notMem (c := ';') (by decide)

/-- An enum without values that is written as a union of them. -/
def LacksArms (c : FoldContext) (d : TypeDef) : Prop :=
  d.kind = .enum ∧ c.options.enumsAsTypes = true ∧ d.body.values = [] ∧
    c.symbols.externalEnum? (.type d) = none

/-- Whether the options leave a definition out. -/
def LeavesOut (c : FoldContext) (d : TypeDef) : Prop :=
  match d.kind with
  | .object | .interface | .union => c.options.suppressesOutput = true
  | .input => c.options.onlyEnums = true
  | .enum => c.options.noExport = true ∧ c.symbols.externalEnum? (.type d) ≠ none
  | .scalar => True

theorem isTyped_enumerators {d : TypeDef} (hd : d.Spelled)
    (hconvert : ∀ s : String, AreNameParts s.toList → AreNameParts (c.resolver.convert s).toList) :
    ∀ e ∈ c.enumerators d, e.IsTyped := by
  refine List.forall_mem_map.2 fun v hv => ⟨isComment_ofMember _ _ _, ?_⟩
  change AreIdentifierParts (c.resolver.convertName v.name false false).toList
  rw [Resolver.convertName_alone]
  exact (hconvert v.name (hd.values v hv).areNameParts).areIdentifierParts

/-- An enum that is declared, with values if it is written as a union of them. -/
theorem isSound_enumDeclaration (hc : c.WritesNames IsWord)
    (hconvert : ∀ s : String, AreNameParts s.toList → AreNameParts (c.resolver.convert s).toList)
    {d : TypeDef} (hd : d.Spelled)
    (harms : ¬(c.options.enumsAsTypes = true ∧ d.body.values = [])) :
    (Statement.declare (c.enumDeclaration d)).IsSound := by
  have hvalues := isTyped_enumerators hd hconvert
  have hname : IsWord (c.resolver.enumName d.name) := hc.convertName hd.name _ _
  unfold enumDeclaration
  by_cases hasType : c.options.enumsAsTypes = true
  · have hne : c.enumerators d ≠ [] := by
      rw [enumerators, Ne, List.map_eq_nil_iff]
      exact fun hnone => harms ⟨hasType, hnone⟩
    rw [if_pos hasType]
    exact ⟨hname, Declaration.completes_of_literals rfl rfl hname hvalues hne⟩
  · rw [if_neg hasType]
    exact ⟨hname, Declaration.completes_of_enumerators rfl rfl hname hvalues⟩

/-- What passes on an import is written without comments. -/
theorem isSound_reexport {identifier : String} (h : IsWord identifier) (typesOnly : Bool) :
    (Statement.reexport identifier typesOnly).IsSound := by
  have htype : IsUnquoted (if typesOnly then "type " else "") := by cases typesOnly <;> decide
  have hcode : IsUnquoted
      ("export " ++ (if typesOnly then "type " else "") ++ "\x7b " ++ identifier ++ " \x7d;") := by
    simp only [isUnquoted_append]
    exact ⟨⟨⟨⟨by decide, htype⟩, by decide⟩, h.isUnquoted⟩, by decide⟩
  have hend : " \x7d;\n" = " \x7d;" ++ "\n" := rfl
  refine ⟨h, _, ⟨_, _, ?_, rfl, (Reduces.of_unquoted hcode).leaves⟩, ?_⟩
  · rw [Statement.text, hend]
    simp only [String.append_assoc]
  · rw [Statement.IsComplete, hend]
    simp only [String.append_assoc]

/-- What a definition becomes is sound, unless it is a union without arms. -/
theorem isSound_typeResult (hc : c.WritesNames IsWord)
    (hconvert : ∀ s : String, AreNameParts s.toList → AreNameParts (c.resolver.convert s).toList)
    {d : TypeDef} (hd : d.Spelled)
    (hidentifier : ∀ e, c.symbols.enums.find? d.name = some e → IsWord e.identifier)
    {statements : List Statement} (h : c.typeResult d = .ok statements) (harms : ¬c.LacksArms d) :
    ∀ x ∈ statements, x.IsSound := by
  have htypes : c.WritesNames IsTypeText := fun name hne hn before after =>
    (hc name hne hn before after).isTypeText
  have hname := hc.convertName hd.name true true
  have hfields {fs : List FieldDef} (hfs : d.body.members = fs.map Member.field) :
      ∀ f ∈ fs.map c.fieldProperty, f.toProperty.IsTyped ∧ ∀ a ∈ f.arguments, a.IsTyped :=
    List.forall_mem_map.2 fun f hf =>
      isTyped_fieldProperty htypes (hd.members (.field f) (hfs ▸ List.mem_map_of_mem hf))
  cases becomes_of_typeResult h with
  | object hk hfs =>
    unfold objectStatements
    split_ifs
    · exact List.forall_mem_nil _
    · exact isSound_withArguments hc hconvert hd (.inl rfl) (isTyped_typenameLine hd) (hfields hfs)
  | interface hk hfs =>
    unfold interfaceStatements
    split_ifs with _ hnone
    · exact List.forall_mem_nil _
    · exact isSound_withArguments hc hconvert hd (.inr ⟨rfl, List.isEmpty_iff.1 hnone⟩)
        (List.forall_mem_nil _) (hfields hfs)
    · exact isSound_withArguments hc hconvert hd (.inl rfl) (List.forall_mem_nil _) (hfields hfs)
  | union hk =>
    unfold unionStatements
    split_ifs
    · exact List.forall_mem_nil _
    · exact List.forall_mem_singleton.2
        ⟨hname, Declaration.completes_of_union rfl rfl hname (isCode_unionMember htypes hd)⟩
  | enum hk =>
    unfold enumStatements
    have hexternal : c.symbols.externalEnum? (.type d) =
        (c.symbols.enums.find? d.name).filter EnumSymbol.isExternal := if_pos hk
    rw [LacksArms, hexternal] at harms
    cases hfind : (c.symbols.enums.find? d.name).filter EnumSymbol.isExternal with
    | some e =>
      have hword := hidentifier e (Option.filter_eq_some_iff.1 hfind).1
      dsimp only
      split_ifs
      · exact List.forall_mem_nil _
      · exact List.forall_mem_singleton.2 (isSound_reexport hword _)
    | none =>
      refine List.forall_mem_singleton.2 (isSound_enumDeclaration hc hconvert hd fun h => ?_)
      exact harms ⟨hk, h.1, h.2, hfind⟩
  | @input vs body hk hvs hbody =>
    refine List.forall_mem_singleton.2 ⟨hname, ?_⟩
    have hinputs : ∀ p ∈ vs.map (c.inputProperty true), p.IsTyped :=
      List.forall_mem_map.2 fun v hv =>
        isTyped_inputProperty htypes (hd.members (.input v) (hvs ▸ List.mem_map_of_mem hv)) true
    rcases eq_of_inputBody hbody with rfl | rfl
    · exact Declaration.completes_of_oneOf rfl rfl hname
        (List.forall_mem_map.2 fun p hp => OneOf.isTyped_arm hinputs (hinputs p hp) _)
    · exact Declaration.completes_of_properties rfl hname (.inl rfl) (List.forall_mem_nil _)
        (List.forall_mem_map.2 fun p hp => (hinputs p hp).line _ _)
  | hidden => exact List.forall_mem_nil _

/-- A union without arms is all that its definition becomes, and it is not complete. -/
theorem LacksArms.not_complete (hc : c.WritesNames IsWord) {d : TypeDef} (hd : d.Spelled)
    (h : c.LacksArms d) {statements : List Statement} (hresult : c.typeResult d = .ok statements) :
    ∃ x, statements = [x] ∧ ¬x.IsComplete (uncommented x.text) := by
  obtain ⟨hk, hasType, hnone, hlocal⟩ := h
  have hexternal : (c.symbols.enums.find? d.name).filter EnumSymbol.isExternal = none :=
    (if_pos hk).symm.trans hlocal
  have hempty : c.enumerators d = [] := by rw [enumerators, hnone, List.map_nil]
  rw [typeResult, hk] at hresult
  cases hresult
  rw [enumStatements, hexternal]
  refine ⟨_, rfl, ?_⟩
  rw [enumDeclaration, if_pos hasType, hempty]
  exact Declaration.not_complete_of_noLiterals rfl rfl (hc.convertName hd.name _ _)

/-- What becomes of a definition that is not left out is something. -/
theorem typeResult_eq_nil_iff {d : TypeDef} {statements : List Statement}
    (h : c.typeResult d = .ok statements) : statements = [] ↔ c.LeavesOut d := by
  unfold LeavesOut
  cases becomes_of_typeResult h with
  | object hk =>
    rw [hk, objectStatements]
    by_cases hs : c.options.suppressesOutput = true <;> simp [hs, Fold.withArguments]
  | interface hk =>
    rw [hk, interfaceStatements]
    by_cases hs : c.options.suppressesOutput = true <;> simp [hs, Fold.withArguments]
  | union hk =>
    rw [hk, unionStatements]
    by_cases hs : c.options.suppressesOutput = true <;> simp [hs]
  | enum hk =>
    have hexternal : c.symbols.externalEnum? (.type d) =
        (c.symbols.enums.find? d.name).filter EnumSymbol.isExternal := if_pos hk
    rw [hk, enumStatements, hexternal]
    cases (c.symbols.enums.find? d.name).filter EnumSymbol.isExternal <;> simp
  | input hk _ hbody =>
    have honly : ¬c.options.onlyEnums = true := by
      intro honly
      rw [typeResult, hk] at h
      obtain ⟨ps, -, h⟩ := exists_of_bind h
      rw [inputStatements, if_pos honly] at h
      cases h
    simp [hk, honly]
  | hidden hk => rcases hk with hk | ⟨hk, honly⟩ <;> simp [*]

/-- Names that are kept, and characters of identifiers before and after them, are words. -/
theorem writesNames_keep {s : Schema} {o : Options} {symbols : SymbolTables}
    (hbefore : AreIdentifierParts o.typesPrefix.toList)
    (hafter : AreIdentifierParts o.typesSuffix.toList) :
    (FoldContext.ofTables s o symbols Convention.keep.apply).WritesNames IsWord := by
  intro name hne hn before after
  have hpart (on : Bool) {t : String} (h : AreIdentifierParts t.toList) :
      AreIdentifierParts (if on then t else "").toList := by
    cases on
    · exact List.forall_mem_nil _
    · exact h
  refine ⟨fun heq => hne ?_, ?_⟩
  · exact (String.append_eq_empty_iff.1 (String.append_eq_empty_iff.1 heq).1).2
  · rw [Resolver.convertName, Naming.affixed, String.toList_append, String.toList_append,
      areIdentifierParts_append, areIdentifierParts_append]
    exact ⟨⟨hpart before hbefore, hn.areIdentifierParts⟩, hpart after hafter⟩

/-- Every declaration is complete. Under the naming convention that keeps names, with nothing but
characters of identifiers around them, a definition of any kind and with any number of members
fails only where its kind or its mark asks for it, and otherwise becomes a sequence of complete
statements; it becomes none at all only if it is left out. The one exception is an enum without
values that is written as a union of them. -/
theorem isComplete_iff {s : Schema} {o : Options} {symbols : SymbolTables}
    (hbuild : SymbolTables.build s o (some Convention.keep.apply) = .ok symbols)
    (hbefore : AreIdentifierParts o.typesPrefix.toList)
    (hafter : AreIdentifierParts o.typesSuffix.toList) {d : TypeDef} (hd : d.Spelled) :
    let c := FoldContext.ofTables s o symbols Convention.keep.apply
    (∀ e, Fold.outcome (Fold.definition c (.type d)) {} = .error e → d.FailsWith s e) ∧
    ∀ statements, Fold.outcome (Fold.definition c (.type d)) {} = .ok statements →
      (statements = [] ↔ c.LeavesOut d) ∧
      uncommented (statementsText statements) =
        Text.join "\n" (statements.map fun x => uncommented x.text) ∧
      ((∀ x ∈ statements, IsWord x.name ∧ x.IsComplete (uncommented x.text)) ↔ ¬c.LacksArms d) := by
  intro c
  have hc : c.WritesNames IsWord := writesNames_keep hbefore hafter
  have hconvert : ∀ s : String,
      AreNameParts s.toList → AreNameParts (c.resolver.convert s).toList :=
    fun s => Convention.areNameParts_apply .keep
  have hidentifier : ∀ e, c.symbols.enums.find? d.name = some e → IsWord e.identifier := by
    intro e he
    have henums := (SymbolTables.eq_of_build hbuild).2.1
    rw [Enums.identifier_of_table henums (OrderedMap.mem_entries_of_find? he)]
    exact hc.convertName hd.name o.enumPrefix o.enumSuffix
  rw [Fold.outcome_definition c Ancestors.outsideInput_empty]
  refine ⟨fun e he => ?_, fun statements h => ⟨typeResult_eq_nil_iff h, ?_, ?_⟩⟩
  · obtain ⟨d', heq, hfails⟩ := failsWith_of_result he
    cases heq
    exact hfails
  · by_cases harms : c.LacksArms d
    · obtain ⟨x, rfl, -⟩ := harms.not_complete hc hd h
      rfl
    · have hsound := isSound_typeResult hc hconvert hd hidentifier h harms
      refine uncommented_join (forall₂_map_map fun x hx => ?_)
      obtain ⟨-, code, hlines, -⟩ := hsound x hx
      rwa [hlines.uncommented]
  · constructor
    · intro hcomplete harms
      obtain ⟨x, rfl, hx⟩ := harms.not_complete hc hd h
      exact hx (List.forall_mem_singleton.1 hcomplete).2
    · intro harms x hx
      obtain ⟨hname, code, hlines, hcomplete⟩ :=
        isSound_typeResult hc hconvert hd hidentifier h harms x hx
      exact ⟨hname, hlines.uncommented.symm ▸ hcomplete⟩

/-- The options that write the palette as a union, in which one constant looks like a comment. -/
def unionOptions : Options where
  enumsAsTypes := true
  typesPrefix := "I"
  enumValues := some (.each (.ofList
    [("Color", .constants (.ofList [("RED", .text "/** */\n")]))]))

theorem isComplete_iff_palette :
    ∃ symbols, SymbolTables.build Enums.palette unionOptions (some Convention.keep.apply) =
        .ok symbols ∧
      let c := FoldContext.ofTables Enums.palette unionOptions symbols Convention.keep.apply
      ∃ x : Statement, Fold.outcome (Fold.definition c (.type Enums.color)) {} = .ok [x] ∧
        x.text = "export type IColor =\n  | '/** */\n'\n  | False\n  | 'BLUE';\n" ∧
        IsWord x.name ∧ x.IsComplete (uncommented x.text) := by
  have hnames : ∀ v ∈ Enums.color.body.values, IsName v.name := by
    simp only [Enums.color, TypeBody.values, List.forall_mem_cons]
    exact ⟨⟨'R', ['E', 'D'], rfl, by decide, areNameParts_of_all (by decide)⟩,
      ⟨'G', "REEN".toList, rfl, by decide, areNameParts_of_all (by decide)⟩,
      ⟨'B', "LUE".toList, rfl, by decide, areNameParts_of_all (by decide)⟩, List.forall_mem_nil _⟩
  have hspelled : Enums.color.Spelled :=
    ⟨⟨'C', "olor".toList, rfl, by decide, areNameParts_of_all (by decide)⟩, List.forall_mem_nil _,
      List.forall_mem_nil _, List.forall_mem_nil _, hnames⟩
  refine ⟨_, rfl, _, Fold.outcome_enum _ _ _, by decide, ?_⟩
  obtain ⟨-, hall⟩ := isComplete_iff (s := Enums.palette) (o := unionOptions) rfl (by decide)
    (by decide) hspelled
  obtain ⟨-, -, hcomplete⟩ := hall _ (Fold.outcome_enum _ _ _)
  exact hcomplete.2 (fun h => absurd h.2.2.1 (List.cons_ne_nil _ _)) _ List.mem_cons_self

/-- The enum `Hue`, of which no values are known yet. -/
def hue : TypeDef :=
  ⟨none, "Hue", [], .enum []⟩

/-- A schema with the enum `Hue` alone. -/
def hues : Schema where
  types := [.ofDefinition .document hue []]
  directives := []
  nodup := by decide

/-- As a union an enum without values is equal to nothing. -/
theorem not_isComplete_hue :
    ∃ symbols, SymbolTables.build hues { enumsAsTypes := true } (some Convention.keep.apply) =
        .ok symbols ∧
      let c := FoldContext.ofTables hues { enumsAsTypes := true } symbols Convention.keep.apply
      ∃ x : Statement, Fold.outcome (Fold.definition c (.type hue)) {} = .ok [x] ∧
        x.text = "export type Hue =\n;\n" ∧ ¬x.IsComplete (uncommented x.text) := by
  have hname : IsWord "Hue" := by decide
  exact ⟨_, rfl, _, Fold.outcome_enum _ _ _, by decide,
    Declaration.not_complete_of_noLiterals rfl rfl hname⟩

end FoldContext

end SdlTypes
