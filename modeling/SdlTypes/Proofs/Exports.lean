import SdlTypes.Proofs.DeclarationCode
import SdlTypes.Proofs.FoldOutcome

/-!
# Exports

Two runs that differ in `noExport` alone. All that a run exports are declarations, helper types and
the enums of other modules that it passes on. Without exports the last are left out, and every
declaration is the same but for the word `export ` (`Declaration.LosesExport`), which stands behind
the comment and in front of the keyword. A head whose blanks are trimmed keeps the rest as it is,
since a keyword is left in front of the blanks (`Block.opening_of_exported`).

`Module.alike_generate_noExport` compares two whole runs. They fail on the same inputs with the same
errors: neither naming convention nor tables nor the members of a definition depend on the option.
-/

namespace SdlTypes

open Sdl Text

/-! ## The text of a declaration -/

/-- Trimming takes nothing from in front of a text that begins with something else than a blank. -/
theorem trimEnd_append (front : String) {s : String} {c : Char} {rest : List Char}
    (hs : s.toList = c :: rest) (hc : c ≠ ' ') :
    Comment.trimEnd (front ++ s) = front ++ Comment.trimEnd s := by
  have htrim := dropEndWhile_append_cons (p := (· = ' ')) (c := c) (by simpa using hc)
  have hs' : dropEndWhile (· = ' ') s.toList = c :: dropEndWhile (· = ' ') rest := by
    rw [hs]
    exact htrim [] rest
  apply String.toList_injective
  simp only [Comment.trimEnd, String.toList_append, String.toList_ofList, hs']
  rw [hs, htrim]

namespace Block

/-- What stands in front of the body of an exported block begins with `export `. -/
theorem opening_of_exported {b : Block} {c : Char} {rest : List Char}
    (hkeyword : b.keyword.toList = c :: rest) (hc : c ≠ ' ') :
    { b with exported := true }.opening =
      "export " ++ { b with exported := false }.opening := by
  have hne : b.keyword ≠ "" := by
    intro heq
    rw [heq] at hkeyword
    cases hkeyword
  have hhead : { b with exported := true }.head =
      "export " ++ { b with exported := false }.head := by
    simp only [head, if_true, Bool.false_eq_true, if_false, String.empty_append]
  obtain ⟨behind, hbehind⟩ : ∃ behind, { b with exported := false }.head.toList = c :: behind := by
    simp only [head, hne, if_false, Bool.false_eq_true, String.empty_append, String.toList_append,
      hkeyword, List.cons_append]
    exact ⟨_, rfl⟩
  unfold opening
  rw [hhead]
  dsimp only
  split_ifs
  · exact trimEnd_append "export " hbehind hc
  · rfl

end Block

namespace Declaration

/-- The second declaration is the first one without the word `export ` behind its comment. -/
structure LosesExport (d d' : Declaration) : Prop where
  same : d' = { d with exported := false }
  text : ∃ behind, d.text = Comment.render 0 d.comment ++ "export " ++ behind ∧
    d'.text = Comment.render 0 d.comment ++ behind

theorem losesExport (d : Declaration) :
    LosesExport { d with exported := true } { d with exported := false } := by
  have hblock (e : Bool) : { d with exported := e }.block = { d.block with exported := e } := by
    have hframe : { d with exported := e }.frame = { d.frame with exported := e } := by
      simp only [frame]
    unfold block
    rw [hframe]
    cases d.body <;> rfl
  obtain ⟨c, rest, hkeyword, hc⟩ : ∃ c rest, d.block.keyword.toList = c :: rest ∧ c ≠ ' ' := by
    rw [keyword_block]
    cases d.keyword <;> exact ⟨_, _, rfl, by decide⟩
  have htext (e : Bool) : { d with exported := e }.text = Comment.render 0 d.comment ++
      ({ d.block with exported := e }.opening ++ d.block.body ++
        (if Block.closedByBrace d.block.keyword then "" else ";") ++ "\n") := by
    rw [text, hblock, ← comment_block]
    simp only [← String.append_assoc]
    rfl
  constructor
  · rfl
  · dsimp only
    refine ⟨_, ?_, htext false⟩
    rw [htext, Block.opening_of_exported hkeyword hc]
    simp only [String.append_assoc]

end Declaration

/-- The second statement is the first one, a declaration, without the word `export `. -/
inductive Statement.LosesExport : Statement → Statement → Prop
  | declare {d d' : Declaration} (h : d.LosesExport d') : LosesExport (.declare d) (.declare d')

/-! ## The fold -/

/-- The entry of a definition for an enum that comes from another module. -/
def SymbolTables.externalEnum? (symbols : SymbolTables) : Definition → Option EnumSymbol
  | .type d =>
    if d.kind = .enum then (symbols.enums.find? d.name).filter EnumSymbol.isExternal else none
  | _ => none

/-- What a definition becomes with exports, and without: an enum of another module is not passed on
any more, and declarations lose their exports one by one. -/
def LosesExports (symbols : SymbolTables) (x : Definition) (off on : List Statement) : Prop :=
  match symbols.externalEnum? x with
  | some e => (∃ typesOnly, off = [.reexport e.identifier typesOnly]) ∧ on = []
  | none => List.Forall₂ Statement.LosesExport off on

theorem losesExports_of_kind {symbols : SymbolTables} {d : TypeDef} (hk : d.kind ≠ .enum)
    {off on : List Statement} (h : List.Forall₂ Statement.LosesExport off on) :
    LosesExports symbols (.type d) off on := by
  rw [LosesExports, SymbolTables.externalEnum?, if_neg hk]
  exact h

namespace FoldContext

variable (c : FoldContext)

/-- The context of a run that differs from another in `noExport` at most. -/
def silent (noExport : Bool) : FoldContext :=
  c.withOptions { c.options with noExport }

theorem losesExport_declaration (d : TypeDef) (keyword : Keyword) (name : String) (body : Body) :
    Statement.LosesExport (.declare (Fold.declaration (c.silent false) d keyword name body))
      (.declare (Fold.declaration (c.silent true) d keyword name body)) :=
  .declare (Declaration.losesExport (Fold.declaration c d keyword name body))

theorem losesExport_declarations (typeName : String) (fields : List FieldProperty) :
    List.Forall₂ Declaration.LosesExport
      (Arguments.declarations (c.silent false).resolver typeName fields)
      (Arguments.declarations (c.silent true).resolver typeName fields) := by
  have honly (b : Bool) : (c.silent b).resolver.options.onlyEnums =
    c.resolver.options.onlyEnums := rfl
  rw [Arguments.declarations, Arguments.declarations, honly, honly]
  split_ifs
  · exact .nil
  · exact forall₂_map_map fun f _ =>
      Declaration.losesExport (Arguments.declaration c.resolver typeName f)

theorem losesExport_withArguments (d : TypeDef) (keyword : Keyword) (lines : List Line)
    (fields : List FieldProperty) :
    List.Forall₂ Statement.LosesExport
      (Fold.withArguments (c.silent false) d keyword lines fields)
      (Fold.withArguments (c.silent true) d keyword lines fields) := by
  have harguments := c.losesExport_declarations d.name fields
  rw [Fold.withArguments, Fold.withArguments, List.map_cons, List.map_cons]
  refine .cons (c.losesExport_declaration d keyword _ _) ?_
  rw [List.forall₂_map_left_iff, List.forall₂_map_right_iff]
  exact harguments.imp fun _ _ h => .declare h

theorem losesExport_objectStatements (d : TypeDef) (fields : List FieldProperty) :
    List.Forall₂ Statement.LosesExport ((c.silent false).objectStatements d fields)
      ((c.silent true).objectStatements d fields) := by
  change List.Forall₂ _ (if c.options.suppressesOutput then [] else _)
    (if c.options.suppressesOutput then [] else _)
  split_ifs
  · exact .nil
  · exact c.losesExport_withArguments d .type (Fold.typenameLine c.options d.name) fields

theorem losesExport_interfaceStatements (d : TypeDef) (fields : List FieldProperty) :
    List.Forall₂ Statement.LosesExport ((c.silent false).interfaceStatements d fields)
      ((c.silent true).interfaceStatements d fields) := by
  change List.Forall₂ _ (if c.options.suppressesOutput then [] else _)
    (if c.options.suppressesOutput then [] else _)
  by_cases h : c.options.suppressesOutput
  · rw [if_pos h, if_pos h]
    exact .nil
  · rw [if_neg h, if_neg h]
    exact c.losesExport_withArguments d _ [] fields

theorem losesExport_unionStatements (d : TypeDef) :
    List.Forall₂ Statement.LosesExport ((c.silent false).unionStatements d)
      ((c.silent true).unionStatements d) := by
  change List.Forall₂ _ (if c.options.suppressesOutput then [] else _)
    (if c.options.suppressesOutput then [] else _)
  split_ifs
  · exact .nil
  · exact .cons (c.losesExport_declaration d .type _ _) .nil

theorem alike_inputStatements (d : TypeDef) (fields : List Property) :
    Alike (List.Forall₂ Statement.LosesExport) ((c.silent false).inputStatements d fields)
      ((c.silent true).inputStatements d fields) := by
  change Alike _ (if c.options.onlyEnums then .ok [] else (c.inputBody d fields).map _)
    (if c.options.onlyEnums then .ok [] else (c.inputBody d fields).map _)
  split_ifs
  · exact .ok .nil
  · exact .of_map fun body _ => .cons (c.losesExport_declaration d .type _ body) .nil

theorem losesExports_enumStatements {d : TypeDef} (hk : d.kind = .enum) :
    LosesExports c.symbols (.type d) ((c.silent false).enumStatements d)
      ((c.silent true).enumStatements d) := by
  have hsymbols (b : Bool) : (c.silent b).symbols = c.symbols := rfl
  rw [LosesExports, SymbolTables.externalEnum?, if_pos hk, enumStatements, enumStatements, hsymbols,
    hsymbols]
  cases (c.symbols.enums.find? d.name).filter EnumSymbol.isExternal with
  | some e => exact ⟨⟨c.options.useTypeImports, rfl⟩, rfl⟩
  | none =>
    refine .cons ?_ .nil
    change Statement.LosesExport (.declare (if c.options.enumsAsTypes then _ else _))
      (.declare (if c.options.enumsAsTypes then _ else _))
    split_ifs
    · exact c.losesExport_declaration d .type _ _
    · exact c.losesExport_declaration d .enum _ _

theorem alike_typeResult (d : TypeDef) :
    Alike (LosesExports c.symbols (.type d)) ((c.silent false).typeResult d)
      ((c.silent true).typeResult d) := by
  have hfields (b : Bool) : (c.silent b).fieldResult = c.fieldResult := rfl
  have hinputs (b : Bool) : (c.silent b).inputResult = c.inputResult := rfl
  rw [typeResult, typeResult, hfields, hfields, hinputs, hinputs]
  cases hk : d.kind with
  | object =>
    exact .of_map fun fields _ =>
      losesExports_of_kind (by simp [hk]) (c.losesExport_objectStatements d fields)
  | interface =>
    exact .of_map fun fields _ =>
      losesExports_of_kind (by simp [hk]) (c.losesExport_interfaceStatements d fields)
  | union => exact .ok (losesExports_of_kind (by simp [hk]) (c.losesExport_unionStatements d))
  | enum => exact .ok (c.losesExports_enumStatements hk)
  | input =>
    exact .of_bind fun fields _ =>
      (c.alike_inputStatements d fields).imp (losesExports_of_kind (by simp [hk]))
  | scalar => exact .ok (losesExports_of_kind (by simp [hk]) .nil)

/-- No error of a definition depends on the option, and exports are all that it takes away. -/
theorem alike_result (x : Definition) :
    Alike (LosesExports c.symbols x) ((c.silent false).result x) ((c.silent true).result x) := by
  cases x with
  | type d => exact c.alike_typeResult d
  | _ => exact .ok .nil

end FoldContext

/-! ## Two runs -/

/-- Without exports a helper type is written as with them, less the word `export ` in front. -/
theorem helperTypes_losesExport (o : Options) :
    List.Forall₂ (fun off on => off.text = "export " ++ on.text)
      (helperTypes { o with noExport := false }) (helperTypes { o with noExport := true }) := by
  have hhelper (name parameters definition : String) :
      (HelperType.mk true name parameters definition).text =
        "export " ++ (HelperType.mk false name parameters definition).text := by
    simp only [HelperType.text, if_true, Bool.false_eq_true, if_false, String.empty_append,
      String.append_assoc]
  unfold helperTypes
  dsimp only
  by_cases honly : o.onlyEnums
  · rw [if_pos honly, if_pos honly]
    exact .nil
  · rw [if_neg honly, if_neg honly]
    refine List.rel_append (List.rel_append ?_ ?_) ?_
    · exact .cons (hhelper _ _ _) (.cons (hhelper _ _ _) (.cons (hhelper _ _ _)
        (.cons (hhelper _ _ _) (.cons (hhelper _ _ _) .nil))))
    · split_ifs
      · exact .cons (hhelper _ _ _) .nil
      · exact .nil
    · split_ifs
      · exact .cons (hhelper _ _ _) .nil
      · exact .nil

namespace Module

/-- What the module of a run with `noExport` off and that of a run with it on have in common, and
where they differ. -/
structure LosesExports (symbols : SymbolTables) (document : Document) (off on : Module) : Prop where
  imports : on.imports = off.imports
  helpers : List.Forall₂ (fun h h' => h.text = "export " ++ h'.text) off.helpers on.helpers
  scalars : off.scalars.LosesExport on.scalars
  directives : on.directives = off.directives
  definitions : Abreast (SdlTypes.LosesExports symbols) document.definitions off.definitions
    on.definitions
  further : on.further = off.further

/-- What a run writes with `noExport` is what it writes without, less all exports; it fails with
and without on the same inputs, with the same errors. -/
theorem alike_generate_noExport (s : Schema) (o : Options) (document : Option Document)
    (convert : Option (String → String)) (further : List String) :
    Alike (fun off on => ∃ symbols, SymbolTables.build s o convert = .ok symbols ∧
        LosesExports symbols (document.getD (s.arrange none)) off on)
      (generate s { o with noExport := false } document convert further)
      (generate s { o with noExport := true } document convert further) := by
  refine alike_generate (Q := SdlTypes.LosesExports) rfl (fun _ => rfl) (fun symbols f x =>
    (FoldContext.ofTables s o symbols f).alike_result x) fun f symbols ys zs hf hsymbols h => ?_
  refine ⟨symbols, ?_, rfl, helperTypes_losesExport o, ?_, rfl, h, rfl⟩
  · have hbuild : SymbolTables.build s o convert = SymbolTables.build s o (some f) := by
      have hconvert : SymbolTables.conversion o convert = SymbolTables.conversion o (some f) := hf
      rw [SymbolTables.build, hconvert]
      rfl
    exact hbuild.trans hsymbols
  · exact Declaration.losesExport (scalarContainer s o symbols.scalars)

end Module

end SdlTypes
