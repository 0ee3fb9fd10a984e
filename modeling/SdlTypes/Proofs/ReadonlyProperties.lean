import SdlTypes.Proofs.DeclarationCode
import SdlTypes.Proofs.FoldOutcome

/-!
# Read-only properties

Two runs that differ in `immutableTypes` alone. The option is a flag on every property of every
statement (`Statement.withReadonly`), and the fold does nothing else with it
(`FoldContext.typeResult_immutable`): it fails with the same errors, and all that it writes is the
same up to these flags. In the text a flag is the word `readonly ` before the name of the property,
wherever properties are written (`Statement.inserted_text`): as lines, as parts of an arm, or as the
open member of a union.

Which names these are can be told from the document and a few other options
(`TypeDef.propertyKeys`); `Module.alike_generate_immutableTypes` compares two whole runs.
-/

namespace SdlTypes

open Sdl Text

/-! ## Texts with marks before names -/

/-- The beginning of a property without a modifier: its name and all in front of its type. -/
def propertyStart (name : String) (optional : Bool) : String :=
  name ++ (if optional then "?" else "") ++ ": "

/-- The second text is the first one with `mark` inserted before properties, directly in front of
their names: once for each of the names, in their order, and nowhere else. -/
inductive Inserted (mark : String) : List String → String → String → Prop
  | same (s : String) : Inserted mark [] s s
  | before (front name : String) (optional : Bool) {names : List String} {s s' : String}
    (rest : Inserted mark names s s') :
    Inserted mark (name :: names) (front ++ " " ++ propertyStart name optional ++ s)
      (front ++ " " ++ mark ++ propertyStart name optional ++ s')

namespace Inserted

variable {mark : String} {names names' : List String} {s s' t t' : String}

theorem prepend (front : String) (h : Inserted mark names s s') :
    Inserted mark names (front ++ s) (front ++ s') := by
  cases h with
  | same s => exact .same _
  | before front' name optional rest =>
    simp only [← String.append_assoc]
    exact .before (front ++ front') name optional rest

theorem append (h : Inserted mark names s s') (h' : Inserted mark names' t t') :
    Inserted mark (names ++ names') (s ++ t) (s' ++ t') := by
  induction h with
  | same s => exact h'.prepend s
  | before front name optional _ ih =>
    simpa only [String.append_assoc, List.cons_append] using before front name optional ih

theorem append_same (h : Inserted mark names s s') (behind : String) :
    Inserted mark names (s ++ behind) (s' ++ behind) := by
  simpa using h.append (.same behind)

/-- Of texts with marks none is empty. -/
theorem eq_empty_iff (h : Inserted mark names s s') : s = "" ↔ s' = "" := by
  cases h with
  | same => rfl
  | before front name optional =>
    simp only [String.append_eq_empty_iff]
    simp

theorem names_eq_nil (h : Inserted mark names s s') (hs : s = "") : names = [] := by
  cases h with
  | same => rfl
  | before front name optional =>
    simp only [String.append_eq_empty_iff] at hs
    simp at hs

/-- No mark stands at the beginning. -/
theorem startsWith_newline (h : Inserted mark names s s') :
    startsWith s "\n" = startsWith s' "\n" := by
  cases h with
  | same => rfl
  | before front name optional =>
    simp only [startsWith, String.toList_append, List.append_assoc]
    cases front.toList <;> rfl

/-- Texts one after another have their marks one after another. -/
theorem join (separator : String) {l : List (List String)} {ss ss' : List String}
    (h : Abreast (Inserted mark) l ss ss') :
    Inserted mark l.flatten (Text.join separator ss) (Text.join separator ss') := by
  induction h with
  | nil => exact .same ""
  | cons hs hrest ih =>
    cases hrest with
    | nil => simpa using hs
    | cons ht hrest =>
      rw [join_cons_cons, join_cons_cons, List.flatten_cons]
      exact (hs.append_same separator).append ih

/-- Texts without marks. -/
theorem abreast_same (ss : List String) :
    Abreast (Inserted mark) (ss.map fun _ => []) ss ss := by
  induction ss with
  | nil => exact .nil
  | cons s ss ih => exact .cons (.same s) ih

/-- The texts of elements that are changed in two ways. -/
theorem join_map {ι κ : Type} (separator : String) {l : List ι} {names : ι → List String}
    {f g : ι → κ} {text : κ → String}
    (h : ∀ x ∈ l, Inserted mark (names x) (text (f x)) (text (g x))) :
    Inserted mark (l.flatMap names) (Text.join separator ((l.map f).map text))
      (Text.join separator ((l.map g).map text)) := by
  rw [List.flatMap_def, List.map_map, List.map_map]
  exact join separator (.of_forall h)

/-- The texts that are not empty have all the marks. -/
theorem join_nonempty (separator : String) {l : List (List String)} {ss ss' : List String}
    (h : Abreast (Inserted mark) l ss ss') :
    Inserted mark l.flatten (Text.join separator (ss.filter (· ≠ "")))
      (Text.join separator (ss'.filter (· ≠ ""))) := by
  suffices hfilter : ∃ l', l'.flatten = l.flatten ∧
      Abreast (Inserted mark) l' (ss.filter (· ≠ "")) (ss'.filter (· ≠ "")) by
    obtain ⟨l', hl, h⟩ := hfilter
    rw [← hl]
    exact join separator h
  induction h with
  | nil => exact ⟨[], rfl, .nil⟩
  | @cons names s s' l ss ss' hs _ ih =>
    obtain ⟨l', hl, h⟩ := ih
    by_cases hempty : s = ""
    · rw [List.filter_cons_of_neg (by simpa using hempty),
        List.filter_cons_of_neg (by simpa using hs.eq_empty_iff.1 hempty), List.flatten_cons,
        hs.names_eq_nil hempty, List.nil_append]
      exact ⟨l', hl, h⟩
    · rw [List.filter_cons_of_pos (by simpa using hempty),
        List.filter_cons_of_pos (by simpa using fun h => hempty (hs.eq_empty_iff.2 h))]
      exact ⟨names :: l', by rw [List.flatten_cons, List.flatten_cons, hl], .cons hs h⟩

end Inserted

/-! ## The flags of a statement -/

section

variable (readonly : Bool)

/-- The property with the flag. -/
def Line.withReadonly (l : Line) : Line :=
  { l with readonly }

/-- The arm with the flag on all its properties. -/
def OneOf.Arm.withReadonly (a : Arm) : Arm :=
  { a with chosen := a.chosen.withReadonly readonly }

/-- The member with the flag on the property of the open one. -/
def UnionMember.withReadonly : UnionMember → UnionMember
  | .reference identifier => .reference identifier
  | .other _ => .other readonly

/-- The body with the flag on all properties. -/
def Body.withReadonly : Body → Body
  | .properties interfaces lines => .properties interfaces (lines.map (Line.withReadonly readonly))
  | .union members => .union (members.map (UnionMember.withReadonly readonly))
  | .oneOf arms => .oneOf (arms.map (OneOf.Arm.withReadonly readonly))
  | .literals values => .literals values
  | .enumerators values => .enumerators values

/-- The declaration with the flag on all properties. -/
def Declaration.withReadonly (d : Declaration) : Declaration :=
  { d with body := d.body.withReadonly readonly }

/-- The statement with the flag on all properties. -/
def Statement.withReadonly : Statement → Statement
  | .declare d => .declare (d.withReadonly readonly)
  | .reexport identifier typesOnly => .reexport identifier typesOnly

end

/-- A flag takes the place of one that was set before. -/
theorem Body.withReadonly_withReadonly (x y : Bool) (b : Body) :
    (b.withReadonly x).withReadonly y = b.withReadonly y := by
  cases b with
  | properties interfaces lines =>
    simp only [withReadonly, List.map_map]
    rfl
  | union members =>
    have hmember : UnionMember.withReadonly y ∘ UnionMember.withReadonly x =
        UnionMember.withReadonly y := by
      funext m
      cases m <;> rfl
    rw [withReadonly, withReadonly, List.map_map, hmember, withReadonly]
  | oneOf arms =>
    simp only [withReadonly, List.map_map]
    rfl
  | literals | enumerators => rfl

theorem Statement.withReadonly_withReadonly (x y : Bool) (s : Statement) :
    (s.withReadonly x).withReadonly y = s.withReadonly y := by
  cases s with
  | declare d =>
    rw [withReadonly, withReadonly, withReadonly, Declaration.withReadonly,
      Declaration.withReadonly, Body.withReadonly_withReadonly, Declaration.withReadonly]
  | reexport => rfl

/-- The names of the properties of an arm. -/
def OneOf.Arm.propertyKeys (a : Arm) : List String :=
  a.chosen.name :: a.excluded

/-- The name of the property of a member that is open. -/
def UnionMember.propertyKeys : UnionMember → List String
  | .reference _ => []
  | .other _ => ["__typename"]

/-- The names of the properties in a body. -/
def Body.propertyKeys : Body → List String
  | .properties _ lines => lines.map Line.name
  | .union members => members.flatMap UnionMember.propertyKeys
  | .oneOf arms => arms.flatMap OneOf.Arm.propertyKeys
  | .literals _ => []
  | .enumerators _ => []

/-- The names of the properties in a statement. -/
def Statement.propertyKeys : Statement → List String
  | .declare d => d.body.propertyKeys
  | .reexport _ _ => []

/-! ## The text of a statement -/

/-- A modifier is a mark before the property behind it. -/
theorem inserted_modifier (name : String) (optional : Bool) (behind : String) :
    Inserted "readonly " [name]
      (" " ++ (Line.modifier false ++ (propertyStart name optional ++ behind)))
      (" " ++ (Line.modifier true ++ (propertyStart name optional ++ behind))) := by
  have h : Inserted "readonly " _ _ _ := .before "" name optional (.same behind)
  change Inserted _ _ (" " ++ ("" ++ _)) (" " ++ ("readonly " ++ _))
  simpa only [String.append_assoc, String.empty_append] using h

/-- The last of the blanks that indent a text stands directly before it. -/
theorem indent_one (s : String) : indent 1 s = " " ++ (" " ++ s) := by
  rw [← String.append_assoc]
  rfl

namespace Line

variable (l : Line)

theorem signature_eq : l.signature =
    modifier l.readonly ++ (propertyStart l.name l.optional ++ (l.type ++ ";")) := by
  simp only [signature, propertyStart, String.append_assoc]

theorem inserted_text :
    Inserted "readonly " [l.name] (l.withReadonly false).text (l.withReadonly true).text := by
  rw [text, text, signature_eq, signature_eq, indent_one, indent_one]
  exact ((inserted_modifier _ _ _).prepend " ").prepend l.comment

end Line

namespace OneOf.Arm

variable (a : Arm)

/-- The semicolons that are taken away from the chosen property stand behind its beginning. -/
theorem trimmed_signature (l : Line) :
    String.ofList (dropEndWhile (· = ';') l.signature.toList) =
      Line.modifier l.readonly ++ (propertyStart l.name l.optional ++
        String.ofList (dropEndWhile (· = ';') (l.type ++ ";").toList)) := by
  have hlist (behind : String) :
      (Line.modifier l.readonly ++ (propertyStart l.name l.optional ++ behind)).toList =
        (Line.modifier l.readonly ++ l.name ++ (if l.optional then "?" else "") ++ ":").toList ++
          ' ' :: behind.toList := by
    simp only [propertyStart, String.toList_append, List.append_assoc]
    rfl
  apply String.toList_injective
  rw [String.toList_ofList, l.signature_eq, hlist, hlist, String.toList_ofList]
  exact dropEndWhile_append_cons (p := (· = ';')) (c := ' ') (by decide) _ _

/-- The blanks between the properties of an arm stand before them. -/
theorem join_semicolon (s : String) (rest : List String) :
    " " ++ Text.join "; " (s :: rest) = Text.join ";" ((s :: rest).map (" " ++ ·)) := by
  induction rest generalizing s with
  | nil => rfl
  | cons t rest ih =>
    rw [List.map_cons, List.map_cons, join_cons_cons, join_cons_cons, ← List.map_cons, ← ih]
    have hsplit : "; " = ";" ++ " " := rfl
    rw [hsplit]
    simp only [String.append_assoc]

theorem inserted_object :
    Inserted "readonly " a.propertyKeys (a.withReadonly false).object
      (a.withReadonly true).object := by
  have hobject (b : Bool) : (a.withReadonly b).object =
      "\x7b" ++ (Text.join ";" ((a.withReadonly b).properties.map (" " ++ ·)) ++ " \x7d") := by
    have hopen : "\x7b " = "\x7b" ++ " " := rfl
    rw [object, properties, ← join_semicolon, hopen]
    simp only [String.append_assoc]
  have hproperties (b : Bool) : (a.withReadonly b).properties =
      (Line.modifier b ++ (propertyStart a.chosen.name a.chosen.optional ++
        String.ofList (dropEndWhile (· = ';') (a.chosen.type ++ ";").toList))) ::
      a.excluded.map fun name => Line.modifier b ++ (propertyStart name true ++ "never") := by
    rw [properties, trimmed_signature]
    simp only [propertyStart, String.append_assoc]
    rfl
  have hkeys : a.propertyKeys =
      ([a.chosen.name] :: a.excluded.map fun name => [name]).flatten := by
    rw [propertyKeys, List.flatten_cons, ← List.flatMap_def, List.flatMap_singleton']
    rfl
  rw [hobject, hobject, hproperties, hproperties, hkeys, List.map_cons, List.map_cons,
    List.map_map, List.map_map]
  refine ((Inserted.join ";" (.cons (inserted_modifier _ _ _) ?_)).append_same _).prepend _
  exact .of_forall fun name _ => inserted_modifier name true "never"

theorem inserted_text :
    Inserted "readonly " a.propertyKeys (a.withReadonly false).text
      (a.withReadonly true).text := by
  rw [text, text, indent, indent]
  exact ((a.inserted_object.prepend "| ").prepend _).prepend a.comment

end OneOf.Arm

theorem UnionMember.inserted_text (m : UnionMember) :
    Inserted "readonly " m.propertyKeys (m.withReadonly false).text
      (m.withReadonly true).text := by
  cases m with
  | reference identifier => exact .same identifier
  | other =>
    exact (inserted_modifier "__typename" true "\"%other\" \x7d").prepend "\x7b"

namespace Block

variable {b b' : Block} {mark : String} {names names' : List String}

theorem inserted_body (hkeyword : b'.keyword = b.keyword)
    (hcontent : Inserted mark names b.content b'.content)
    (hinner : Inserted mark names' b.inner b'.inner) :
    Inserted mark (names ++ names') b.body b'.body := by
  rw [body, body, hkeyword]
  by_cases hi : b.inner = ""
  · rw [if_neg (not_not.2 hi), if_neg (not_not.2 (hinner.eq_empty_iff.1 hi)),
      hinner.names_eq_nil hi, List.append_nil]
    by_cases hc : b.content = ""
    · rw [if_neg (not_not.2 hc), if_neg (not_not.2 (hcontent.eq_empty_iff.1 hc)),
        hcontent.names_eq_nil hc]
      exact .same _
    · rw [if_pos hc, if_pos fun h => hc (hcontent.eq_empty_iff.2 h)]
      exact hcontent
  · rw [if_pos hi, if_pos fun h => hi (hinner.eq_empty_iff.2 h)]
    exact ((hcontent.append_same _).append hinner).append_same _

/-- A block shows the marks of its content, then those of its lines. -/
theorem inserted_text (b : Block) {content content' inner inner' : String}
    (hcontent : Inserted mark names content content')
    (hinner : Inserted mark names' inner inner') :
    Inserted mark (names ++ names') { b with content, inner }.text
      { b with content := content', inner := inner' }.text := by
  have hbody : Inserted mark (names ++ names') { b with content, inner }.body
      { b with content := content', inner := inner' }.body := inserted_body rfl hcontent hinner
  rw [text, text]
  dsimp only
  rw [hcontent.startsWith_newline]
  exact ((hbody.prepend _).append_same _).append_same "\n"

/-- A block that differs in its content alone. -/
theorem inserted_text_of_content (b : Block) {content content' : String}
    (hcontent : Inserted mark names content content') :
    Inserted mark names { b with content }.text { b with content := content' }.text := by
  rw [← List.append_nil names]
  exact b.inserted_text hcontent (.same b.inner)

end Block

namespace Declaration

variable (d : Declaration)

theorem inserted_text :
    Inserted "readonly " d.body.propertyKeys (d.withReadonly false).text
      (d.withReadonly true).text := by
  obtain ⟨exported, keyword, name, comment, body⟩ := d
  cases body with
  | properties interfaces lines =>
    have hcontent : Inserted "readonly " []
        (Block.mergeInterfaces interfaces
          (!((lines.map (Line.withReadonly false)).map Line.text).isEmpty))
        (Block.mergeInterfaces interfaces
          (!((lines.map (Line.withReadonly true)).map Line.text).isEmpty)) := by
      simp only [List.isEmpty_map]
      exact .same _
    have hlines := Inserted.join_map "\n" fun l (_ : l ∈ lines) => l.inserted_text
    rw [← List.map_eq_flatMap] at hlines
    exact Block.inserted_text _ hcontent hlines
  | union members =>
    exact Block.inserted_text_of_content _ (.join_map " | " fun m _ => m.inserted_text)
  | oneOf arms =>
    cases arms with
    | nil => exact .same _
    | cons a arms =>
      have harms := Inserted.join_map "\n" fun x (_ : x ∈ a :: arms) => x.inserted_text
      exact Block.inserted_text_of_content _ (harms.prepend "\n")
  | literals values => exact .same _
  | enumerators values => exact .same _

end Declaration

theorem Statement.inserted_text (x : Statement) :
    Inserted "readonly " x.propertyKeys (x.withReadonly false).text
      (x.withReadonly true).text := by
  cases x with
  | declare d => exact d.inserted_text
  | reexport identifier typesOnly => exact .same _

/-- What a definition becomes is marked before all its properties. -/
theorem inserted_statementsText (statements : List Statement) :
    Inserted "readonly " (statements.flatMap Statement.propertyKeys)
      (statementsText (statements.map (Statement.withReadonly false)))
      (statementsText (statements.map (Statement.withReadonly true))) := by
  exact .join_map "\n" fun x _ => x.inserted_text

/-! ## The fold -/

theorem OneOf.arms_withReadonly (readonly : Bool) (typeName : String) (fields : List Property)
    (b : Bool) :
    arms typeName fields readonly =
      (arms typeName fields b).map (List.map (Arm.withReadonly readonly)) := by
  unfold arms
  cases fields.forM (checkNullable typeName) with
  | error e => rfl
  | ok =>
    refine congrArg Except.ok ?_
    rw [List.map_map]
    rfl

namespace FoldContext

variable (c : FoldContext) (readonly : Bool)

/-- The context of a run that differs from another in `immutableTypes` at most. -/
def immutable : FoldContext :=
  c.withOptions { c.options with immutableTypes := readonly }

theorem options_immutable :
    (c.immutable readonly).options = { c.options with immutableTypes := readonly } := rfl

theorem schema_immutable : (c.immutable readonly).schema = c.schema := rfl

theorem symbols_immutable : (c.immutable readonly).symbols = c.symbols := rfl

theorem suppressesOutput_immutable :
    (c.immutable readonly).options.suppressesOutput = c.options.suppressesOutput := rfl

theorem declarations_immutable (typeName : String) (fields : List FieldProperty) :
    Arguments.declarations (c.immutable readonly).resolver typeName fields =
      (Arguments.declarations c.resolver typeName fields).map
        (Declaration.withReadonly readonly) := by
  have hdeclaration (f : FieldProperty) :
      Arguments.declaration (c.immutable readonly).resolver typeName f =
        (Arguments.declaration c.resolver typeName f).withReadonly readonly := by
    simp only [Arguments.declaration, Declaration.withReadonly, Body.withReadonly, List.map_map]
    rfl
  have honly : (c.immutable readonly).resolver.options.onlyEnums =
    c.resolver.options.onlyEnums := rfl
  rw [Arguments.declarations, Arguments.declarations, honly]
  split_ifs
  · rfl
  · rw [List.map_map]
    exact List.map_congr_left fun f _ => hdeclaration f

theorem withArguments_immutable (d : TypeDef) (keyword : Keyword) (lines : List Line)
    (fields : List FieldProperty) :
    Fold.withArguments (c.immutable readonly) d keyword
        (lines.map (Line.withReadonly readonly)) fields =
      (Fold.withArguments c d keyword lines fields).map (Statement.withReadonly readonly) := by
  have hlines : lines.map (Line.withReadonly readonly) ++
      fields.map (fun f => Fold.memberLine (c.immutable readonly) f.toProperty) =
        (lines ++ fields.map fun f => Fold.memberLine c f.toProperty).map
          (Line.withReadonly readonly) := by
    rw [List.map_append, List.map_map]
    rfl
  rw [Fold.withArguments, declarations_immutable, hlines, Fold.withArguments, List.map_map,
    List.map_cons, List.map_cons, List.map_map]
  rfl

theorem typenameLine_immutable (name : String) :
    Fold.typenameLine (c.immutable readonly).options name =
      (Fold.typenameLine c.options name).map (Line.withReadonly readonly) := by
  rw [Fold.typenameLine, Fold.typenameLine, options_immutable]
  dsimp only
  split_ifs <;> rfl

theorem objectStatements_immutable (d : TypeDef) (fields : List FieldProperty) :
    (c.immutable readonly).objectStatements d fields =
      (c.objectStatements d fields).map (Statement.withReadonly readonly) := by
  rw [objectStatements, typenameLine_immutable, withArguments_immutable,
    suppressesOutput_immutable, objectStatements]
  split_ifs <;> rfl

theorem interfaceStatements_immutable (d : TypeDef) (fields : List FieldProperty) :
    (c.immutable readonly).interfaceStatements d fields =
      (c.interfaceStatements d fields).map (Statement.withReadonly readonly) := by
  have h := c.withArguments_immutable readonly d
    (if d.body.interfaces.isEmpty then .interface else .type) [] fields
  rw [List.map_nil] at h
  rw [interfaceStatements, h, suppressesOutput_immutable, interfaceStatements]
  split_ifs <;> rfl

theorem unionStatements_immutable (d : TypeDef) :
    (c.immutable readonly).unionStatements d =
      (c.unionStatements d).map (Statement.withReadonly readonly) := by
  have hmembers : (c.immutable readonly).unionMembers d =
      (c.unionMembers d).map (UnionMember.withReadonly readonly) := by
    rw [unionMembers, unionMembers, List.map_append, List.map_map, options_immutable]
    congr 1
    dsimp only
    split_ifs <;> rfl
  rw [unionStatements, hmembers, suppressesOutput_immutable, unionStatements]
  split_ifs <;> rfl

theorem inputBody_immutable (d : TypeDef) (fields : List Property) :
    (c.immutable readonly).inputBody d fields =
      (c.inputBody d fields).map (Body.withReadonly readonly) := by
  rw [inputBody, inputBody, schema_immutable, options_immutable]
  dsimp only
  split_ifs
  · rw [OneOf.arms_withReadonly readonly d.name fields c.options.immutableTypes]
    cases OneOf.arms d.name fields c.options.immutableTypes <;> rfl
  · refine congrArg Except.ok ?_
    rw [Body.withReadonly, List.map_map]
    rfl

theorem inputStatements_immutable (d : TypeDef) (fields : List Property) :
    (c.immutable readonly).inputStatements d fields =
      (c.inputStatements d fields).map (List.map (Statement.withReadonly readonly)) := by
  rw [inputStatements, inputBody_immutable, inputStatements, options_immutable]
  dsimp only
  split_ifs
  · rfl
  · cases c.inputBody d fields <;> rfl

theorem enumStatements_immutable (d : TypeDef) :
    (c.immutable readonly).enumStatements d =
      (c.enumStatements d).map (Statement.withReadonly readonly) := by
  have hdeclaration : (c.immutable readonly).enumDeclaration d =
      (c.enumDeclaration d).withReadonly readonly := by
    rw [enumDeclaration, enumDeclaration, options_immutable]
    dsimp only
    split_ifs <;> rfl
  rw [enumStatements, enumStatements, symbols_immutable, hdeclaration, options_immutable]
  dsimp only
  split
  · split_ifs <;> rfl
  · rfl

/-- The flag on properties is all that the option changes, and no error depends on it. -/
theorem typeResult_immutable (d : TypeDef) :
    (c.immutable readonly).typeResult d =
      (c.typeResult d).map (List.map (Statement.withReadonly readonly)) := by
  have hfields : (c.immutable readonly).fieldResult = c.fieldResult := rfl
  have hinputs : (c.immutable readonly).inputResult = c.inputResult := rfl
  rw [typeResult, typeResult, hfields, hinputs]
  cases d.kind with
  | object =>
    dsimp only
    cases d.body.members.mapM c.fieldResult with
    | error e => rfl
    | ok fields => exact congrArg Except.ok (c.objectStatements_immutable readonly d fields)
  | interface =>
    dsimp only
    cases d.body.members.mapM c.fieldResult with
    | error e => rfl
    | ok fields => exact congrArg Except.ok (c.interfaceStatements_immutable readonly d fields)
  | union => exact congrArg Except.ok (c.unionStatements_immutable readonly d)
  | enum => exact congrArg Except.ok (c.enumStatements_immutable readonly d)
  | input =>
    dsimp only
    cases d.body.members.mapM (c.inputResult d.name) with
    | error e => rfl
    | ok fields => exact c.inputStatements_immutable readonly d fields
  | scalar => rfl

theorem result_immutable (x : Definition) :
    (c.immutable readonly).result x =
      (c.result x).map (List.map (Statement.withReadonly readonly)) := by
  cases x with
  | type d => exact c.typeResult_immutable readonly d
  | _ => rfl

end FoldContext

/-! ## The names of properties -/

/-- The names of the properties that are written for a type definition. Fields are followed by the
arguments of all of them; in an input object of which one field is set there is an arm for every
field, with the name of the field before those of all others. -/
def Sdl.TypeDef.propertyKeys (s : Schema) (o : Options) (d : TypeDef) : List String :=
  let names := d.body.members.map Member.name
  let arguments := d.body.members.flatMap fun m => m.asField.arguments.map InputValueDef.name
  match d.kind with
  | .object =>
    if o.suppressesOutput then []
    else (if o.skipTypename then [] else ["__typename"]) ++ names ++ arguments
  | .interface => if o.suppressesOutput then [] else names ++ arguments
  | .union => if o.suppressesOutput || !o.futureProofUnions then [] else ["__typename"]
  | .input =>
    if o.onlyEnums then []
    else if Schema.isOneOf (s.find? d.name) d.directives then
      names.flatMap fun name => name :: names.filter (· ≠ name)
    else names
  | .enum => []
  | .scalar => []

/-- The names of the properties that are written for a definition. -/
def Sdl.Definition.propertyKeys (s : Schema) (o : Options) : Definition → List String
  | .type d => d.propertyKeys s o
  | _ => []

namespace FoldContext

variable {c : FoldContext}

theorem propertyKeys_withArguments (d : TypeDef) (keyword : Keyword) (lines : List Line)
    (fs : List FieldDef) (h : c.options.suppressesOutput = false) :
    (Fold.withArguments c d keyword lines (fs.map c.fieldProperty)).flatMap
        Statement.propertyKeys =
      lines.map Line.name ++ (fs.map Member.field).map Member.name ++
        (fs.map Member.field).flatMap fun m => m.asField.arguments.map InputValueDef.name := by
  have honly : c.resolver.options.onlyEnums = false := (Bool.or_eq_false_iff.1 h).2
  have hdeclarations :
      (Arguments.declarations c.resolver d.name (fs.map c.fieldProperty)).flatMap
          (fun x => x.body.propertyKeys) =
        (fs.map c.fieldProperty).flatMap fun f => f.arguments.map Property.name := by
    refine Arguments.flatMap_declarations honly d.name (fun f => ?_) _
    rw [Arguments.declaration, Body.propertyKeys, List.map_map]
    rfl
  rw [Fold.withArguments, List.flatMap_map, List.flatMap_cons]
  refine congrArg₂ (· ++ ·) ?_ (hdeclarations.trans ?_)
  · simp only [Statement.propertyKeys, Fold.declaration, Body.propertyKeys, List.map_append,
      List.map_map]
    rfl
  · simp only [List.flatMap_map, FoldContext.fieldProperty, List.map_map]
    rfl

theorem propertyKeys_unionMembers (d : TypeDef) :
    (c.unionMembers d).flatMap UnionMember.propertyKeys =
      if c.options.futureProofUnions then ["__typename"] else [] := by
  have hreferences : (d.body.types.map fun name =>
      UnionMember.reference (c.resolver.resolveUnionMember name)).flatMap
        UnionMember.propertyKeys = [] := by
    rw [List.flatMap_map]
    exact List.flatMap_eq_nil_iff.2 fun _ _ => rfl
  rw [unionMembers, List.flatMap_append, hreferences]
  split_ifs <;> rfl

theorem propertyKeys_inputBody {d : TypeDef} {vs : List InputValueDef} {body : Body}
    (h : c.inputBody d (vs.map (c.inputProperty true)) = .ok body) :
    body.propertyKeys =
      if Schema.isOneOf (c.schema.find? d.name) d.directives then
        (vs.map InputValueDef.name).flatMap fun name =>
          name :: (vs.map InputValueDef.name).filter (· ≠ name)
      else vs.map InputValueDef.name := by
  unfold inputBody at h
  split_ifs at h ⊢
  · obtain ⟨arms, harms, rfl⟩ := exists_of_map (eq_ok_of_mapError h)
    obtain ⟨-, -, harms⟩ := exists_of_bind harms
    cases harms
    simp only [Body.propertyKeys, List.flatMap_map, List.map_map]
    simp only [OneOf.Arm.propertyKeys, OneOf.arm, List.map_map]
    rfl
  · cases h
    rw [Body.propertyKeys, List.map_map, List.map_map]
    rfl

/-- What a definition becomes has the properties that its names are for. -/
theorem propertyKeys_of_typeResult {d : TypeDef} {statements : List Statement}
    (h : c.typeResult d = .ok statements) :
    statements.flatMap Statement.propertyKeys = d.propertyKeys c.schema c.options := by
  rw [TypeDef.propertyKeys]
  cases becomes_of_typeResult h with
  | object hk hfs =>
    rw [objectStatements, hk, hfs]
    dsimp only
    cases ho : c.options.suppressesOutput with
    | true => rfl
    | false =>
      rw [if_neg Bool.false_ne_true, if_neg Bool.false_ne_true,
        propertyKeys_withArguments _ _ _ _ ho, Fold.typenameLine, apply_ite (List.map Line.name)]
      rfl
  | interface hk hfs =>
    rw [interfaceStatements, hk, hfs]
    dsimp only
    cases ho : c.options.suppressesOutput with
    | true => rfl
    | false =>
      rw [if_neg Bool.false_ne_true, if_neg Bool.false_ne_true,
        propertyKeys_withArguments _ _ _ _ ho]
      rfl
  | union hk =>
    rw [unionStatements, hk]
    dsimp only
    cases c.options.suppressesOutput with
    | true => rfl
    | false =>
      rw [if_neg Bool.false_ne_true, List.flatMap_singleton]
      refine (propertyKeys_unionMembers d).trans ?_
      cases c.options.futureProofUnions <;> rfl
  | enum hk =>
    rw [hk, enumStatements, enumDeclaration]
    dsimp only
    split <;> split_ifs <;> rfl
  | @input vs body hk hvs hbody =>
    have honly : c.options.onlyEnums = false := by
      rw [typeResult, hk] at h
      obtain ⟨ps, -, h⟩ := exists_of_bind h
      rw [inputStatements] at h
      split_ifs at h with honly
      · cases h
      · simpa using honly
    have hnames : (vs.map Member.input).map Member.name = vs.map InputValueDef.name := by
      rw [List.map_map]
      rfl
    rw [hk, hvs, honly, hnames, List.flatMap_singleton]
    exact propertyKeys_inputBody hbody
  | hidden hk =>
    rcases hk with hk | ⟨hk, honly⟩
    · rw [hk]
      rfl
    · rw [hk, honly]
      rfl

theorem propertyKeys_of_result {x : Definition} {statements : List Statement}
    (h : c.result x = .ok statements) :
    statements.flatMap Statement.propertyKeys = x.propertyKeys c.schema c.options := by
  cases x with
  | type d => exact propertyKeys_of_typeResult h
  | _ =>
    cases h
    rfl

end FoldContext

/-! ## Two runs -/

/-- What a run with `immutableTypes` off and a run with it on write for the definition `x`: the same
but for the flag, which is the word `readonly ` before every property. -/
structure GainsReadonly (s : Schema) (o : Options) (x : Definition) (off on : List Statement) :
    Prop where
  flags : on = off.map (Statement.withReadonly true)
  text : Inserted "readonly " (x.propertyKeys s o) (statementsText off) (statementsText on)

namespace Module

/-- In modules that differ in their definitions alone the marks are those of the definitions. -/
theorem inserted_content {m m' : Module} {mark : String} {names : List (List String)}
    (hscalars : m'.scalars = m.scalars) (hdirectives : m'.directives = m.directives)
    (hfurther : m'.further = m.further)
    (h : Abreast (Inserted mark) names (m.definitions.map statementsText)
      (m'.definitions.map statementsText)) :
    Inserted mark names.flatten m.content m'.content := by
  have hparts (front : List String) := Inserted.join_nonempty "\n"
    (((Inserted.abreast_same front).append h).append (Inserted.abreast_same m.further))
  have hnil (ss : List String) : (ss.map fun _ => ([] : List String)).flatten = [] :=
    List.flatten_eq_nil_iff.2 fun _ hmem => by
      obtain ⟨-, -, rfl⟩ := List.mem_map.1 hmem
      rfl
  simp only [List.flatten_append, hnil, List.nil_append, List.append_nil] at hparts
  rw [content, content, hscalars, hdirectives, hfurther]
  exact hparts _

/-- What a run writes with `immutableTypes` is what it writes without, with `readonly ` before the
name of every property of its definitions; it fails with and without on the same inputs, with the
same errors. -/
theorem alike_generate_immutableTypes (s : Schema) (o : Options) (document : Option Document)
    (convert : Option (String → String)) (further : List String) :
    Alike (fun off on =>
        Abreast (GainsReadonly s o) (document.getD (s.arrange none)).definitions off.definitions
          on.definitions ∧
        Inserted "readonly "
          ((document.getD (s.arrange none)).definitions.flatMap fun x => x.propertyKeys s o)
          off.content on.content ∧
        on.preamble = off.preamble ∧ on.scalars = off.scalars ∧ on.directives = off.directives)
      (generate s { o with immutableTypes := false } document convert further)
      (generate s { o with immutableTypes := true } document convert further) := by
  refine alike_generate (Q := fun _ => GainsReadonly s o) rfl (fun _ => rfl)
    (fun symbols f x => ?_) fun f symbols ys zs _ _ h => ?_
  · change Alike _ (((FoldContext.ofTables s o symbols f).immutable false).result x)
      (((FoldContext.ofTables s o symbols f).immutable true).result x)
    rw [FoldContext.result_immutable, FoldContext.result_immutable]
    refine .of_map fun statements hresult => ?_
    have hkeys : x.propertyKeys s o = statements.flatMap Statement.propertyKeys :=
      (FoldContext.propertyKeys_of_result hresult).symm
    constructor
    · rw [List.map_map]
      exact List.map_congr_left fun y _ => (y.withReadonly_withReadonly false true).symm
    · rw [hkeys]
      exact inserted_statementsText statements
  · have hdefinitions : Abreast (Inserted "readonly ")
        ((document.getD (s.arrange none)).definitions.map fun x => x.propertyKeys s o)
        (ys.map statementsText) (zs.map statementsText) := h.map fun _ _ _ hx => hx.text
    refine ⟨h, ?_, rfl, rfl, rfl⟩
    rw [List.flatMap_def]
    exact inserted_content rfl rfl rfl hdefinitions

end Module

end SdlTypes
