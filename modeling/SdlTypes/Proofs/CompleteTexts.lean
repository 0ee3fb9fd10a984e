import SdlTypes.Proofs.CodeStructure

/-!
# Complete texts

A declaration is complete if it names what it declares and gives a whole block or right side, with
every bracket closed outside of literals (`IsDeclaration`). The blocks of a declaration put a body
behind the name by asking what is empty and how it begins, so completeness is shown for each way in
which a declaration is put together: `Declaration.completes_of_properties`,
`Declaration.completes_of_union`, `Declaration.completes_of_oneOf`,
`Declaration.completes_of_literals` and `Declaration.completes_of_enumerators`. Each of them starts
from rows (`IsRow`): what is left of a row without its comment is code.

A union of the values of an enum needs one value. Without any there is nothing behind the equals
sign, and the declaration is not complete (`Declaration.not_complete_of_noLiterals`).
-/

namespace SdlTypes

open Sdl Text

/-! ## What is complete -/

/-- A text that does not consist of blanks alone. -/
def Text.HasInk (s : String) : Prop :=
  ∃ c ∈ s.toList, isBlank c = false

/-- A complete declaration of a name: `interface` or `enum` with a block, or `type` with something
that it is equal to. Brackets are balanced outside of literals. -/
inductive IsDeclaration (exported : Bool) (name : String) : String → Prop
  | interface {inside : String} (h : IsCode inside.toList) : IsDeclaration exported name
    ((if exported then "export " else "") ++
      ("interface " ++ name ++ " \x7b" ++ inside ++ "\x7d\n"))
  | enum {inside : String} (h : IsCode inside.toList) : IsDeclaration exported name
    ((if exported then "export " else "") ++
      ("enum " ++ name ++ " \x7b" ++ inside ++ "\x7d\n"))
  | type {gap rhs : String} (hgap : gap = " " ∨ gap = "\n") (h : IsCode rhs.toList)
    (hink : HasInk rhs) : IsDeclaration exported name
    ((if exported then "export " else "") ++
      ("type " ++ name ++ " =" ++ gap ++ rhs ++ ";\n"))

/-- Whether a text is a statement as a whole: a complete declaration, or all of what passes on an
import. -/
def Statement.IsComplete : Statement → String → Prop
  | .declare d, text => IsDeclaration d.exported d.name text
  | .reexport identifier typesOnly, text =>
    text = "export " ++ (if typesOnly then "type " else "") ++ "\x7b " ++ identifier ++ " \x7d;\n"

/-! ## Parts of declarations -/

/-- A text in the position of a type: code on one line that is not blank, and without
semicolons. -/
structure Text.IsTypeText (s : String) : Prop where
  code : IsCode s.toList
  ink : HasInk s
  line : '\n' ∉ s.toList
  semicolon : ';' ∉ s.toList

theorem Text.HasInk.append {s : String} (h : HasInk s) (t : String) : HasInk (s ++ t) := by
  obtain ⟨c, hc, hblank⟩ := h
  exact ⟨c, by rw [String.toList_append]; exact List.mem_append_left _ hc, hblank⟩

theorem Text.HasInk.prepend {t : String} (h : HasInk t) (s : String) : HasInk (s ++ t) := by
  obtain ⟨c, hc, hblank⟩ := h
  exact ⟨c, by rw [String.toList_append]; exact List.mem_append_right _ hc, hblank⟩

theorem Text.IsWord.hasInk {s : String} (h : IsWord s) : HasInk s := by
  obtain ⟨c, rest, hs⟩ := List.exists_cons_of_ne_nil (by simpa using h.nonempty : s.toList ≠ [])
  have hc : c ∈ s.toList := hs ▸ List.mem_cons_self
  exact ⟨c, hc, isBlank_of_isIdentifierPart (h.parts c hc)⟩

theorem Text.IsWord.isTypeText {s : String} (h : IsWord s) : IsTypeText s where
  code := .of_areIdentifierParts h.parts
  ink := h.hasInk
  line := h.parts.notMem (by decide)
  semicolon := h.parts.notMem (by decide)

theorem Text.isTypeText_never : IsTypeText "never" :=
  IsWord.isTypeText (by decide)

theorem AreNameParts.literalBody {s : List Char} (h : AreNameParts s) : LiteralBody '\'' s := by
  have hmarks : ∀ c ∈ ['\'', '\\'], Sdl.Token.isNamePart c = false := by decide
  have hne {c d : Char} (hc : Sdl.Token.isNamePart c = true) (hd : d ∈ ['\'', '\\']) : c ≠ d := by
    rintro rfl
    rw [hmarks c hd] at hc
    cases hc
  exact .of_plain fun c hc => ⟨hne (h c hc) (by decide), hne (h c hc) (by decide)⟩

/-- To be such a text goes through all types. -/
theorem Text.typeProperty_isTypeText : TypeProperty IsTypeText := by
  have hsemicolon := typeProperty_notMem ';' (by decide) (by decide)
  have hline := typeProperty_notMem '\n' (by decide) (by decide)
  constructor
  · intro helper hhelper s hs
    have hhelpers : ∀ helper ∈ typeHelpers, IsWord helper := by decide
    have hword := hhelpers helper hhelper
    refine ⟨?_, ((hword.hasInk.append "<").append s).append ">",
      hline.generic helper hhelper s hs.line, hsemicolon.generic helper hhelper s hs.semicolon⟩
    have := (IsCode.of_areIdentifierParts hword.parts).append
      (IsCode.enclose (by decide : ('<', '>') ∈ brackets) hs.code)
    simpa [String.toList_append] using this
  · intro container hcontainer name hn
    have hcontainers : ∀ container ∈ ["Scalars", Fold.directiveContainer], IsWord container := by
      decide
    have hword := hcontainers container hcontainer
    refine ⟨?_, ((hword.hasInk.append "['").append name).append "']",
      hline.member container hcontainer name hn, hsemicolon.member container hcontainer name hn⟩
    have hquote := IsCode.quote '\'' (by decide) hn.literalBody
    have := (IsCode.of_areIdentifierParts hword.parts).append
      (IsCode.enclose (by decide : ('[', ']') ∈ brackets) hquote)
    simpa [String.toList_append] using this

theorem IsConstantLiteral.isCode {s : String} (h : IsConstantLiteral s) : IsCode s.toList := by
  cases h with
  | @number negative digits h =>
    have hdigits : IsCode digits := by
      have hmarks : ∀ c ∈ codeMarks, c.isDigit = false := by decide
      exact .of_plain fun c hc hmark => h.notMem (hmarks c hmark) hc
    have hsign : ∀ c ∈ (if negative then "-" else "").toList, c ∉ codeMarks := by
      cases negative <;> decide
    rw [String.toList_append, String.toList_ofList]
    exact (IsCode.of_plain hsign).append hdigits
  | truth value => exact .of_plain (by cases value <;> decide)
  | text hbody =>
    simpa [String.toList_append] using IsCode.quote '\'' (by decide) hbody

theorem Constant.isCode_literal (v : Constant) : IsCode v.literal.toList := by
  cases v with
  | text value =>
    rw [literal, Text.quoted]
    simpa [String.toList_append] using
      IsCode.quote '\'' (by decide) (literalBody_escape value.toList)
  | int value => exact (isConstantLiteral_int value).isCode
  | bool value => exact .of_plain (by cases value <;> decide)

/-! ## Rows -/

/-- A row of a declaration is left with code. -/
def IsRow (text code : String) : Prop :=
  Leaves text code ∧ IsCode code.toList

/-- A property with a comment above it and the type of a property. -/
structure Line.IsTyped (l : Line) : Prop where
  comment : IsComment l.comment
  name : AreIdentifierParts l.name.toList
  type : IsTypeText l.type

/-- An arm with a comment above it and code as its object type. -/
structure OneOf.Arm.IsTyped (a : Arm) : Prop where
  comment : IsComment a.comment
  object : IsCode a.object.toList

/-- An enum value with a comment above it. -/
structure Enumerator.IsTyped (e : Enumerator) : Prop where
  comment : IsComment e.comment
  name : AreIdentifierParts e.name.toList

/-- Code below a comment is a row. -/
theorem isRow_commented {comment code : String} (hc : IsComment comment)
    (h : IsCode code.toList) : IsRow (comment ++ indent 1 code) (indent 1 code) := by
  have hcode : IsCode (indent 1 code).toList := by
    rw [toList_indent]
    exact (IsCode.of_plain (by decide)).append h
  exact ⟨(Reduces.of_isCode hcode).leaves.comment hc, hcode⟩

theorem isCode_modifier (readonly : Bool) : IsCode (Line.modifier readonly).toList :=
  .of_plain (by cases readonly <;> decide)

/-- What stands in front of the type of a property. -/
theorem isCode_key (readonly : Bool) {name : String} (h : AreIdentifierParts name.toList)
    (optional : Bool) :
    IsCode (Line.modifier readonly ++ name ++ (if optional then "?" else "") ++ ": ").toList := by
  have hmark : IsCode (if optional then "?" else "").toList :=
    .of_plain (by cases optional <;> decide)
  have hcolon : IsCode ": ".toList := .of_plain (by decide)
  simp only [String.toList_append]
  exact (((isCode_modifier readonly).append (.of_areIdentifierParts h)).append hmark).append hcolon

theorem Line.isRow_text {l : Line} (h : l.IsTyped) : IsRow l.text (indent 1 l.signature) := by
  refine isRow_commented h.comment ?_
  have hend : IsCode ";".toList := .of_plain (by decide)
  rw [signature, String.toList_append, String.toList_append]
  exact ((isCode_key l.readonly h.name l.optional).append h.type.code).append hend

theorem OneOf.Arm.isRow_text {a : Arm} (h : a.IsTyped) :
    IsRow a.text (indent 1 ("| " ++ a.object)) := by
  refine isRow_commented h.comment ?_
  rw [String.toList_append]
  exact (IsCode.of_plain (by decide)).append h.object

theorem Enumerator.isRow_line {e : Enumerator} (h : e.IsTyped) :
    IsRow e.line (indent 1 (e.name ++ " = " ++ e.value.literal ++ ",")) := by
  refine isRow_commented h.comment ?_
  have hequals : IsCode " = ".toList := .of_plain (by decide)
  have hend : IsCode ",".toList := .of_plain (by decide)
  simp only [String.toList_append]
  exact (((IsCode.of_areIdentifierParts h.name).append hequals).append
    e.value.isCode_literal).append hend

theorem Enumerator.isRow_arm {e : Enumerator} (h : e.IsTyped) :
    IsRow e.arm (indent 1 ("| " ++ e.value.literal)) := by
  refine isRow_commented h.comment ?_
  rw [String.toList_append]
  exact (IsCode.of_plain (by decide)).append e.value.isCode_literal

/-- Rows one below the other. -/
theorem isRow_join {ss ts : List String} (h : List.Forall₂ IsRow ss ts) :
    IsRow (Text.join "\n" ss) (Text.join "\n" ts) := by
  refine ⟨.join (h.imp fun _ _ hrow => hrow.1), .join (.of_plain (by decide)) ?_⟩
  induction h with
  | nil => exact List.forall_mem_nil _
  | cons hrow _ ih => exact List.forall_mem_cons.2 ⟨hrow.2, ih⟩

/-! ## Bodies -/

namespace Block

variable {b : Block}

/-- A block of rows stands between braces, behind the content. -/
theorem reduces_body_of_rows {ss ts : List String} (hinner : b.inner = Text.join "\n" ss)
    (hne : b.inner ≠ "") (hrows : List.Forall₂ IsRow ss ts) (hcontent : IsCode b.content.toList) :
    ∃ inside, IsCode inside.toList ∧
      Reduces b.body (b.content ++ ("\x7b" ++ inside ++ "\x7d")) := by
  obtain ⟨hleaves, hcode⟩ := isRow_join hrows
  refine ⟨"\n" ++ Text.join "\n" ts ++ "\n", ?_, ?_⟩
  · have hbreak : IsCode "\n".toList := .of_plain (by decide)
    rw [String.toList_append, String.toList_append]
    exact (hbreak.append hcode).append hbreak
  · have hopen : "\x7b\n" = "\x7b" ++ "\n" := rfl
    have hclose : "\n\x7d" = "\n" ++ "\x7d" := rfl
    have hbody : b.body =
        b.content ++ "\x7b" ++ ("\n" ++ Text.join "\n" ss) ++ ("\n" ++ "\x7d") := by
      rw [body, if_pos hne, hinner, hopen, hclose]
      simp only [String.append_assoc]
    have hreduces := (((Reduces.of_isCode hcontent).append
      (.of_unquoted (by decide : ∀ c ∈ "\x7b".toList, c ≠ '/' ∧ c ∉ quotes))).append
        hleaves.newline).append
          (.of_unquoted (by decide : ∀ c ∈ ("\n" ++ "\x7d").toList, c ≠ '/' ∧ c ∉ quotes))
    rw [hbody]
    simpa only [String.append_assoc] using hreduces

/-- A block without rows and without content is a pair of braces. -/
theorem body_of_empty (hinner : b.inner = "") (hcontent : b.content = "")
    (hkeyword : b.keyword ≠ "") : b.body = "\x7b\x7d" := by
  rw [body, if_neg (not_not.2 hinner), if_neg (not_not.2 hcontent), if_pos hkeyword]

/-- Between the braces of a block without content there is code. -/
theorem reduces_body_of_braces {ss ts : List String} (hinner : b.inner = Text.join "\n" ss)
    (hrows : List.Forall₂ IsRow ss ts) (hcontent : b.content = "") (hkeyword : b.keyword ≠ "") :
    ∃ inside, IsCode inside.toList ∧ Reduces b.body ("\x7b" ++ inside ++ "\x7d") := by
  by_cases hne : b.inner = ""
  · refine ⟨"", .nil, ?_⟩
    rw [body_of_empty hne hcontent hkeyword]
    exact .of_unquoted (by decide)
  · have hcode : IsCode b.content.toList := by
      rw [hcontent]
      exact .nil
    obtain ⟨inside, hinside, hreduces⟩ := reduces_body_of_rows hinner hne hrows hcode
    rw [hcontent, String.empty_append] at hreduces
    exact ⟨inside, hinside, hreduces⟩

end Block

/-! ## Declarations -/

/-- A statement is complete once its comments are removed. -/
def Statement.Completes (x : Statement) : Prop :=
  ∃ code, LeavesLines x.text code ∧ x.IsComplete code

/-- Characters outside of comments and literals. -/
def Text.IsUnquoted (s : String) : Prop :=
  ∀ c ∈ s.toList, c ≠ '/' ∧ c ∉ quotes

instance (s : String) : Decidable (IsUnquoted s) :=
  inferInstanceAs (Decidable (∀ _ ∈ _, _))

theorem Text.isUnquoted_append {s t : String} :
    IsUnquoted (s ++ t) ↔ IsUnquoted s ∧ IsUnquoted t := by
  rw [IsUnquoted, String.toList_append]
  exact List.forall_mem_append

theorem Text.IsWord.isUnquoted {s : String} (h : IsWord s) : IsUnquoted s := by
  have hmarks : ∀ c ∈ '/' :: quotes, isIdentifierPart c = false := by decide
  refine fun c hc =>
    ⟨?_, fun hquote => h.parts.notMem (hmarks c (List.mem_cons_of_mem _ hquote)) hc⟩
  rintro rfl
  exact h.parts.notMem (hmarks _ List.mem_cons_self) hc

/-- A comment, and below it a body between some characters of a declaration. -/
theorem leavesLines_of_body {text comment front body code behind : String}
    (htext : text = comment ++ (front ++ body ++ behind ++ "\n")) (hc : IsComment comment)
    (hfront : IsUnquoted front) (hbody : Reduces body code) (hbehind : IsUnquoted behind) :
    LeavesLines text (front ++ code ++ behind ++ "\n") := by
  refine ⟨comment ++ (front ++ body ++ behind), _, ?_, rfl, ?_⟩
  · rw [htext]
    simp only [String.append_assoc]
  · exact (((Reduces.of_unquoted hfront).append hbody).append
      (.of_unquoted hbehind)).leaves.comment hc

namespace Declaration

variable {d : Declaration}

theorem label_block (hname : IsWord d.name) : d.block.label = d.name ++ " " := by
  have hsame : d.block.name = d.name := by
    unfold block
    cases d.body <;> rfl
  rw [Block.label, hsame, if_neg hname.nonempty]

theorem exported_block (d : Declaration) : d.block.exported = d.exported := by
  unfold block
  cases d.body <;> rfl

theorem isComment_block (d : Declaration) : IsComment d.block.comment :=
  ⟨0, d.comment, d.comment_block⟩

theorem keyword_block_of_type (hkeyword : d.keyword = .type) : d.block.keyword = "type" := by
  rw [keyword_block, hkeyword]
  rfl

/-- What stands in front of the body. -/
theorem isUnquoted_front (exported : Bool) {word name behind : String} (hword : IsUnquoted word)
    (hname : IsWord name) (hbehind : IsUnquoted behind) :
    IsUnquoted ((if exported then "export " else "") ++ (word ++ name ++ behind)) := by
  have hexport : IsUnquoted (if exported then "export " else "") := by
    cases exported <;> decide
  simp only [isUnquoted_append]
  exact ⟨hexport, ⟨hword, hname.isUnquoted⟩, hbehind⟩

/-- A type whose content is on the line of its equals sign. -/
theorem completes_of_type (hkeyword : d.keyword = .type) (hname : IsWord d.name)
    (hline : startsWith d.block.content "\n" = false) {code : String}
    (hbody : Reduces d.block.body code) (hcode : IsCode code.toList) (hink : HasInk code) :
    (Statement.declare d).Completes := by
  have htext : d.text = d.block.comment ++ ((if d.exported then "export " else "") ++
      ("type " ++ d.name ++ " = ") ++ d.block.body ++ ";" ++ "\n") := by
    have hequals : " = " = " " ++ ("=" ++ " ") := rfl
    have hend : ";\n" = ";" ++ "\n" := rfl
    rw [text, Block.text_of_type (d.keyword_block_of_type hkeyword), label_block hname, exported_block, Block.gap, hline,
      if_neg Bool.false_ne_true, hequals, hend]
    simp only [String.append_assoc]
  have hleaves := leavesLines_of_body htext d.isComment_block
    (isUnquoted_front d.exported (by decide) hname (by decide)) hbody (by decide)
  refine ⟨_, hleaves, ?_⟩
  have hcomplete : IsDeclaration d.exported d.name _ := .type (.inl rfl) hcode hink
  have hequals : " = " = " =" ++ " " := rfl
  have hend : ";\n" = ";" ++ "\n" := rfl
  rw [hend] at hcomplete
  rw [hequals]
  simpa only [Statement.IsComplete, String.append_assoc] using hcomplete

/-- What is left of a type whose content begins on the line below. -/
theorem leavesLines_of_rows (hkeyword : d.keyword = .type) (hname : IsWord d.name)
    {rows code : String} (hcontent : d.block.content = "\n" ++ rows) (hinner : d.block.inner = "")
    (hleaves : Leaves rows code) :
    LeavesLines d.text ((if d.exported then "export " else "") ++ ("type " ++ d.name ++ " =") ++
      ("\n" ++ code) ++ ";" ++ "\n") := by
  have htext : d.text = d.block.comment ++ ((if d.exported then "export " else "") ++
      ("type " ++ d.name ++ " =") ++ ("\n" ++ rows) ++ ";" ++ "\n") := by
    have hequals : " =" = " " ++ "=" := rfl
    have hbreak : "=\n" = "=" ++ "\n" := rfl
    have hend : ";\n" = ";" ++ "\n" := rfl
    rw [text, Block.text_of_content (d.keyword_block_of_type hkeyword) hcontent hinner, label_block hname, exported_block,
      hequals, hbreak, hend]
    simp only [String.append_assoc]
  exact leavesLines_of_body htext d.isComment_block
    (isUnquoted_front d.exported (by decide) hname (by decide)) hleaves.newline (by decide)

/-- A type whose content begins on the line below. -/
theorem completes_of_rows (hkeyword : d.keyword = .type) (hname : IsWord d.name)
    {ss ts : List String} (hcontent : d.block.content = "\n" ++ Text.join "\n" ss)
    (hinner : d.block.inner = "") (hrows : List.Forall₂ IsRow ss ts)
    (hink : HasInk (Text.join "\n" ts)) : (Statement.declare d).Completes := by
  obtain ⟨hleaves, hcode⟩ := isRow_join hrows
  refine ⟨_, leavesLines_of_rows hkeyword hname hcontent hinner hleaves, ?_⟩
  have hcomplete : IsDeclaration d.exported d.name _ := .type (.inr rfl) hcode hink
  have hend : ";\n" = ";" ++ "\n" := rfl
  rw [hend] at hcomplete
  simpa only [Statement.IsComplete, String.append_assoc] using hcomplete

/-- An interface or an enum with a block and nothing else. -/
theorem completes_of_braces (hkeyword : d.keyword = .interface ∨ d.keyword = .enum)
    (hname : IsWord d.name) {ss ts : List String} (hcontent : d.block.content = "")
    (hinner : d.block.inner = Text.join "\n" ss) (hrows : List.Forall₂ IsRow ss ts) :
    (Statement.declare d).Completes := by
  have hword : d.block.keyword = d.keyword.text := d.keyword_block
  have hnamed : d.block.keyword ≠ "" ∧ d.block.keyword ≠ "type" ∧
      Block.closedByBrace d.block.keyword = true ∧ IsUnquoted (d.keyword.text ++ " ") := by
    rw [hword]
    rcases hkeyword with hk | hk <;> rw [hk] <;> decide
  obtain ⟨hne, htype, hclosed, hunquoted⟩ := hnamed
  obtain ⟨inside, hinside, hbody⟩ := Block.reduces_body_of_braces hinner hrows hcontent hne
  have hstarts : startsWith d.block.content "\n" = false := by
    rw [hcontent]
    decide
  have htext : d.text = d.block.comment ++ ((if d.exported then "export " else "") ++
      (d.keyword.text ++ " " ++ d.name ++ " ") ++ d.block.body ++ "" ++ "\n") := by
    rw [text, Block.text_of_braces hne htype hclosed hstarts, label_block hname, exported_block,
      hword]
    simp only [String.append_assoc, String.empty_append]
  have hlines := leavesLines_of_body htext d.isComment_block
    (isUnquoted_front d.exported hunquoted hname (by decide)) hbody (by decide)
  refine ⟨_, hlines, ?_⟩
  have hopen : " \x7b" = " " ++ "\x7b" := rfl
  have hclose : "\x7d\n" = "\x7d" ++ "\n" := rfl
  rcases hkeyword with hk | hk
  · have hcomplete : IsDeclaration d.exported d.name _ := .interface hinside
    have hinterface : "interface " = "interface" ++ " " := rfl
    rw [hopen, hclose, hinterface] at hcomplete
    rw [hk]
    simpa only [Statement.IsComplete, Keyword.text, String.append_assoc, String.empty_append] using
      hcomplete
  · have hcomplete : IsDeclaration d.exported d.name _ := .enum hinside
    have henum : "enum " = "enum" ++ " " := rfl
    rw [hopen, hclose, henum] at hcomplete
    rw [hk]
    simpa only [Statement.IsComplete, Keyword.text, String.append_assoc, String.empty_append] using
      hcomplete

end Declaration

/-! ### The forms of bodies -/

theorem Text.HasInk.join_cons {s : String} (h : HasInk s) (separator : String)
    (rest : List String) : HasInk (join separator (s :: rest)) := by
  cases rest with
  | nil => exact h
  | cons t rest =>
    rw [join_cons_cons, String.append_assoc]
    exact h.append _

namespace Declaration

variable {d : Declaration}

/-- A type without a block is its content, or empty braces. -/
theorem completes_of_content (hkeyword : d.keyword = .type) (hname : IsWord d.name)
    (hinner : d.block.inner = "") (hline : '\n' ∉ d.block.content.toList)
    (hcode : IsCode d.block.content.toList) (hink : d.block.content ≠ "" → HasInk d.block.content) :
    (Statement.declare d).Completes := by
  have hstarts : startsWith d.block.content "\n" = false :=
    startsWith_eq_false List.mem_cons_self hline
  by_cases hnone : d.block.content = ""
  · have hnamed : d.block.keyword ≠ "" := by
      rw [keyword_block, hkeyword]
      decide
    have hbraces : IsCode "\x7b\x7d".toList :=
      IsCode.enclose (by decide : ('\x7b', '\x7d') ∈ brackets) .nil
    have hbody := Block.body_of_empty hinner hnone hnamed
    exact completes_of_type hkeyword hname hstarts (hbody.symm ▸ .of_isCode hbraces) hbraces
      ⟨'\x7b', by decide⟩
  · have hbody : d.block.body = d.block.content := by
      rw [Block.body, if_neg (not_not.2 hinner), if_pos hnone]
    exact completes_of_type hkeyword hname hstarts (hbody.symm ▸ .of_isCode hcode) hcode
      (hink hnone)

/-- Properties, and interfaces in front of them. -/
theorem completes_of_properties {interfaces : List String} {lines : List Line}
    (hbody : d.body = .properties interfaces lines) (hname : IsWord d.name)
    (hkeyword : d.keyword = .type ∨ d.keyword = .interface ∧ interfaces = [])
    (hinterfaces : ∀ i ∈ interfaces, IsWord i) (hlines : ∀ l ∈ lines, l.IsTyped) :
    (Statement.declare d).Completes := by
  have hblock : d.block = d.frame.withBody interfaces (lines.map Line.text) := by rw [block, hbody]
  have hinner : d.block.inner = Text.join "\n" (lines.map Line.text) := by rw [hblock]; rfl
  have hcontent : d.block.content =
      Block.mergeInterfaces interfaces (!(lines.map Line.text).isEmpty) := by rw [hblock]; rfl
  have hrows : List.Forall₂ IsRow (lines.map Line.text) (lines.map fun l => indent 1 l.signature) :=
    forall₂_map_map fun l hl => l.isRow_text (hlines l hl)
  rcases hkeyword with hkeyword | ⟨hkeyword, rfl⟩
  · have hmark : IsCode " & ".toList := .of_plain (by decide)
    have hwords : ∀ i ∈ interfaces, IsTypeText i := fun i hi => (hinterfaces i hi).isTypeText
    have hjoin : IsCode (Text.join " & " interfaces).toList :=
      .join hmark fun i hi => (hwords i hi).code
    have hline : '\n' ∉ d.block.content.toList := by
      rw [hcontent, Block.mergeInterfaces, String.toList_append, List.mem_append, not_or]
      refine ⟨not_mem_join (by decide) fun i hi => (hwords i hi).line, ?_⟩
      split_ifs <;> decide
    have hcode : IsCode d.block.content.toList := by
      rw [hcontent, Block.mergeInterfaces, String.toList_append]
      refine hjoin.append ?_
      split_ifs
      · exact hmark
      · exact .nil
    by_cases hempty : d.block.inner = ""
    · refine completes_of_content hkeyword hname hempty hline hcode fun hne => ?_
      cases interfaces with
      | nil => exact absurd hcontent hne
      | cons i rest =>
        rw [hcontent]
        exact ((hinterfaces i List.mem_cons_self).hasInk.join_cons _ _).append _
    · obtain ⟨inside, hinside, hreduces⟩ := Block.reduces_body_of_rows hinner hempty hrows hcode
      refine completes_of_type hkeyword hname (startsWith_eq_false List.mem_cons_self hline)
        hreduces ?_ ?_
      · have := hcode.append (IsCode.enclose (by decide : ('\x7b', '\x7d') ∈ brackets) hinside)
        simpa [String.toList_append] using this
      · have hbrace : HasInk "\x7b" := ⟨'\x7b', by decide⟩
        exact ((hbrace.append inside).append _).prepend _
  · refine completes_of_braces (.inl hkeyword) hname ?_ hinner hrows
    rw [hcontent]
    rfl

/-- The members of a union. -/
theorem completes_of_union {members : List UnionMember} (hbody : d.body = .union members)
    (hkeyword : d.keyword = .type) (hname : IsWord d.name)
    (hmembers : ∀ m ∈ members, IsCode m.text.toList ∧ HasInk m.text ∧ '\n' ∉ m.text.toList) :
    (Statement.declare d).Completes := by
  have hblock : d.block =
      { d.frame with content := Text.join " | " (members.map UnionMember.text) } := by
    rw [block, hbody]
  have hcontent : d.block.content = Text.join " | " (members.map UnionMember.text) := by rw [hblock]
  refine completes_of_content hkeyword hname (by rw [hblock]; rfl) ?_ ?_ fun hne => ?_
  · rw [hcontent]
    exact not_mem_join (by decide) (List.forall_mem_map.2 fun m hm => (hmembers m hm).2.2)
  · rw [hcontent]
    exact .join (.of_plain (by decide)) (List.forall_mem_map.2 fun m hm => (hmembers m hm).1)
  · cases members with
    | nil => exact absurd hcontent hne
    | cons m rest =>
      rw [hcontent]
      exact (hmembers m List.mem_cons_self).2.1.join_cons _ _

/-- The first row of a union with a bar in front of it is not blank. -/
theorem hasInk_arms {s : String} {rest : List String} (h : ∃ t, s = indent 1 ("| " ++ t)) :
    HasInk (Text.join "\n" (s :: rest)) := by
  obtain ⟨t, rfl⟩ := h
  refine HasInk.join_cons ?_ _ _
  have hbar : HasInk "| " := ⟨'|', by decide⟩
  exact (hbar.append t).prepend _

/-- The arms of an object of which one field is set, or none. -/
theorem completes_of_oneOf {arms : List OneOf.Arm} (hbody : d.body = .oneOf arms)
    (hkeyword : d.keyword = .type) (hname : IsWord d.name) (harms : ∀ a ∈ arms, a.IsTyped) :
    (Statement.declare d).Completes := by
  have hblock : d.block = { d.frame with content := OneOf.unionText arms } := by rw [block, hbody]
  have hinner : d.block.inner = "" := by rw [hblock]; rfl
  cases arms with
  | nil =>
    have hcontent : d.block.content = "never" := by rw [hblock]; rfl
    refine completes_of_content hkeyword hname hinner ?_ ?_ fun _ => ?_ <;> rw [hcontent]
    · exact isTypeText_never.line
    · exact isTypeText_never.code
    · exact isTypeText_never.ink
  | cons a arms =>
    have hcontent : d.block.content =
        "\n" ++ Text.join "\n" ((a :: arms).map OneOf.Arm.text) := by rw [hblock]; rfl
    exact completes_of_rows hkeyword hname hcontent hinner
      (forall₂_map_map fun a ha => a.isRow_text (harms a ha)) (hasInk_arms ⟨_, rfl⟩)

/-- The arms of an enum as a union, of which there is one at least. -/
theorem completes_of_literals {values : List Enumerator} (hbody : d.body = .literals values)
    (hkeyword : d.keyword = .type) (hname : IsWord d.name) (hvalues : ∀ e ∈ values, e.IsTyped)
    (hne : values ≠ []) : (Statement.declare d).Completes := by
  have hblock : d.block =
      { d.frame with content := "\n" ++ Text.join "\n" (values.map Enumerator.arm) } := by
    rw [block, hbody]
  obtain ⟨e, rest, rfl⟩ := List.exists_cons_of_ne_nil hne
  have hcontent : d.block.content =
      "\n" ++ Text.join "\n" ((e :: rest).map Enumerator.arm) := by rw [hblock]
  exact completes_of_rows hkeyword hname hcontent (by rw [hblock]; rfl)
    (forall₂_map_map fun e he => e.isRow_arm (hvalues e he)) (hasInk_arms ⟨_, rfl⟩)

/-- The lines of an enum. -/
theorem completes_of_enumerators {values : List Enumerator} (hbody : d.body = .enumerators values)
    (hkeyword : d.keyword = .enum) (hname : IsWord d.name) (hvalues : ∀ e ∈ values, e.IsTyped) :
    (Statement.declare d).Completes := by
  have hblock : d.block =
      { d.frame with inner := Text.join "\n" (values.map Enumerator.line) } := by rw [block, hbody]
  have hrows : List.Forall₂ IsRow (values.map Enumerator.line)
      (values.map fun e => indent 1 (e.name ++ " = " ++ e.value.literal ++ ",")) :=
    forall₂_map_map fun e he => e.isRow_line (hvalues e he)
  exact completes_of_braces (.inr hkeyword) hname (by rw [hblock]; rfl) (by rw [hblock]) hrows

/-- Of an enum without values the union has no arms, and nothing stands behind the equals sign. -/
theorem not_complete_of_noLiterals (hbody : d.body = .literals []) (hkeyword : d.keyword = .type)
    (hname : IsWord d.name) : ¬(Statement.declare d).IsComplete (uncommented d.text) := by
  have hblock : d.block = { d.frame with content := "\n" ++ Text.join "\n" [] } := by
    rw [block, hbody]
    rfl
  obtain ⟨hleaves, -⟩ := isRow_join .nil
  have hlines := leavesLines_of_rows hkeyword hname (by rw [hblock]) (by rw [hblock]; rfl) hleaves
  rw [hlines.uncommented]
  generalize hs : (if d.exported then "export " else "") ++ ("type " ++ d.name ++ " =") ++
    ("\n" ++ Text.join "\n" []) ++ ";" ++ "\n" = s
  intro h
  have hchars := congrArg String.toList hs
  cases h with
  | interface => simp [String.toList_append] at hchars
  | enum => simp [String.toList_append] at hchars
  | @type gap rhs hgap _ hink =>
    rcases hgap with rfl | rfl
    · simp [String.toList_append] at hchars
    · obtain ⟨c, hc, -⟩ := hink
      have hempty : rhs.toList = [] := by simpa [String.toList_append] using hchars
      rw [hempty] at hc
      cases hc

end Declaration

end SdlTypes
