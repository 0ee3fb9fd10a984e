import SdlTypes.Declaration
import SdlTypes.Declaration.MemberComment
import SdlTypes.Proofs.CommentRemoval
import SdlTypes.Proofs.Results

/-!
# The code of declarations

What is left of a written statement without its comments: the statement that has none
(`Statement.hasLines_text`). All that this asks for is that the comments above the parts of the
statement have been rendered and that there are no slashes in the rest of it (`Statement.Tidy`).
-/

namespace SdlTypes

open Text

/-! ## Statements without comments -/

/-- The property without the comment above it. -/
def Line.bare (l : Line) : Line :=
  { l with comment := "" }

/-- The arm without the comment above it. -/
def OneOf.Arm.bare (a : Arm) : Arm :=
  { a with comment := "", chosen := a.chosen.bare }

/-- The enum value without the comment above it. -/
def Enumerator.bare (e : Enumerator) : Enumerator :=
  { e with comment := "" }

/-- The body without the comments in it. -/
def Body.bare : Body → Body
  | .properties interfaces lines => .properties interfaces (lines.map Line.bare)
  | .union members => .union members
  | .oneOf arms => .oneOf (arms.map OneOf.Arm.bare)
  | .literals values => .literals (values.map Enumerator.bare)
  | .enumerators values => .enumerators (values.map Enumerator.bare)

/-- The declaration without comments. -/
def Declaration.bare (d : Declaration) : Declaration :=
  { d with comment := "", body := d.body.bare }

/-- The statement without comments. -/
def Statement.bare : Statement → Statement
  | .declare d => .declare d.bare
  | .reexport identifier typesOnly => .reexport identifier typesOnly

/-! ## Tidy statements -/

/-- A text that is a comment, or empty. -/
def IsComment (s : String) : Prop :=
  ∃ level text, s = Comment.render level text

theorem isComment_empty : IsComment "" := ⟨0, "", rfl⟩

theorem isComment_ofMember (level : Nat) (description : Option String)
    (directives : List Sdl.Directive) : IsComment (Comment.ofMember level description directives) :=
  ⟨level, _, rfl⟩

/-- A property with a comment above it and no slashes besides. -/
structure Line.Tidy (l : Line) : Prop where
  comment : IsComment l.comment
  name : SlashFree l.name
  type : SlashFree l.type

/-- An arm with a comment above it and no slashes besides. -/
structure OneOf.Arm.Tidy (a : Arm) : Prop where
  comment : IsComment a.comment
  chosen : SlashFree a.chosen.signature
  excluded : ∀ name ∈ a.excluded, SlashFree name

/-- An enum value with a comment above it and no slashes besides. -/
structure Enumerator.Tidy (e : Enumerator) : Prop where
  comment : IsComment e.comment
  name : SlashFree e.name
  value : SlashFree e.value.literal

/-- A body all of whose parts are tidy. -/
def Body.Tidy : Body → Prop
  | .properties interfaces lines => (∀ name ∈ interfaces, SlashFree name) ∧ ∀ l ∈ lines, l.Tidy
  | .union members => ∀ m ∈ members, SlashFree m.text
  | .oneOf arms => ∀ a ∈ arms, a.Tidy
  | .literals values => ∀ e ∈ values, e.Tidy
  | .enumerators values => ∀ e ∈ values, e.Tidy

/-- A declaration with a name without slashes and a tidy body. -/
structure Declaration.Tidy (d : Declaration) : Prop where
  name : SlashFree d.name
  body : d.body.Tidy

/-- A statement whose comments are rendered and which has no slashes besides. -/
def Statement.Tidy : Statement → Prop
  | .declare d => d.Tidy
  | .reexport identifier _ => SlashFree identifier

instance (s : String) : Decidable (SlashFree s) :=
  inferInstanceAs (Decidable (_ ∉ _))

/-! ## Lines -/

theorem slashFree_ite {p : Prop} [Decidable p] {s t : String} (hs : SlashFree s)
    (ht : SlashFree t) : SlashFree (if p then s else t) := by
  split_ifs
  · exact hs
  · exact ht

theorem slashFree_trimEnd {s : String} (h : SlashFree s) : SlashFree (Comment.trimEnd s) := by
  rw [SlashFree, Comment.trimEnd, String.toList_ofList]
  exact fun hmem => h ((dropEndWhile_isPrefix _ _).subset hmem)

theorem slashFree_indent (level : Nat) {s : String} (h : SlashFree s) :
    SlashFree (indent level s) := by
  rw [SlashFree, toList_indent, List.mem_append, not_or]
  exact ⟨fun hmem => absurd (List.eq_of_mem_replicate hmem) (by decide), h⟩

theorem indent_ne_empty {level : Nat} (h : level ≠ 0) (s : String) : indent level s ≠ "" := by
  intro heq
  have hlist : (indent level s).toList = [] := by
    rw [heq]
    rfl
  rw [toList_indent, List.append_eq_nil_iff, List.replicate_eq_nil_iff] at hlist
  omega

theorem append_ne_empty {s t : String} (h : t ≠ "") : s ++ t ≠ "" :=
  fun heq => h (String.append_eq_empty_iff.1 heq).2

/-- Code below a comment. -/
theorem hasCode_commented {comment s : String} (hc : IsComment comment) (hs : SlashFree s) :
    HasCode (comment ++ s) s := by
  obtain ⟨level, text, rfl⟩ := hc
  exact hs.hasCode.comment level text

theorem slashFree_modifier (readonly : Bool) : SlashFree (Line.modifier readonly) := by
  cases readonly <;> decide

namespace Line

variable {l : Line}

theorem slashFree_signature (hn : SlashFree l.name) (ht : SlashFree l.type) :
    SlashFree l.signature := by
  simp only [signature, slashFree_append]
  exact ⟨⟨⟨⟨⟨slashFree_modifier _, hn⟩, slashFree_ite (by decide) (by decide)⟩, by decide⟩, ht⟩,
    by decide⟩

theorem hasCode_text (h : l.Tidy) : HasCode l.text l.bare.text := by
  have hcode := slashFree_indent 1 (slashFree_signature h.name h.type)
  have hbare : l.bare.text = indent 1 l.signature := String.empty_append
  rw [hbare]
  exact hasCode_commented h.comment hcode

theorem text_ne_empty (l : Line) : l.text ≠ "" :=
  append_ne_empty (indent_ne_empty Nat.one_ne_zero _)

end Line

namespace OneOf.Arm

theorem slashFree_object {a : Arm} (h : a.Tidy) : SlashFree a.object := by
  have hchosen : SlashFree (String.ofList (dropEndWhile (· = ';') a.chosen.signature.toList)) := by
    rw [SlashFree, String.toList_ofList]
    exact fun hmem => h.chosen ((dropEndWhile_isPrefix _ _).subset hmem)
  have hproperties : ∀ s ∈ a.properties, SlashFree s := by
    refine List.forall_mem_cons.2 ⟨hchosen, fun s hs => ?_⟩
    obtain ⟨name, hname, rfl⟩ := List.mem_map.1 hs
    rw [slashFree_append, slashFree_append]
    exact ⟨⟨slashFree_modifier _, h.excluded name hname⟩, by decide⟩
  rw [object, slashFree_append, slashFree_append]
  exact ⟨⟨by decide, slashFree_join (by decide) hproperties⟩, by decide⟩

theorem hasCode_text {a : Arm} (h : a.Tidy) : HasCode a.text a.bare.text := by
  have hcode : SlashFree (indent 1 ("| " ++ a.object)) :=
    slashFree_indent 1 (slashFree_append.2 ⟨by decide, slashFree_object h⟩)
  have hbare : a.bare.text = indent 1 ("| " ++ a.object) := String.empty_append
  rw [hbare]
  exact hasCode_commented h.comment hcode

end OneOf.Arm

namespace Enumerator

variable {e : Enumerator}

theorem hasCode_line (h : e.Tidy) : HasCode e.line e.bare.line := by
  have hcode : SlashFree (indent 1 (e.name ++ " = " ++ e.value.literal ++ ",")) := by
    refine slashFree_indent 1 ?_
    simp only [slashFree_append]
    exact ⟨⟨⟨h.name, by decide⟩, h.value⟩, by decide⟩
  have hbare : e.bare.line = indent 1 (e.name ++ " = " ++ e.value.literal ++ ",") :=
    String.empty_append
  rw [hbare]
  exact hasCode_commented h.comment hcode

theorem line_ne_empty (e : Enumerator) : e.line ≠ "" :=
  append_ne_empty (indent_ne_empty Nat.one_ne_zero _)

theorem hasCode_arm (h : e.Tidy) : HasCode e.arm e.bare.arm := by
  have hcode : SlashFree (indent 1 ("| " ++ e.value.literal)) :=
    slashFree_indent 1 (slashFree_append.2 ⟨by decide, h.value⟩)
  have hbare : e.bare.arm = indent 1 ("| " ++ e.value.literal) := String.empty_append
  rw [hbare]
  exact hasCode_commented h.comment hcode

end Enumerator

/-! ## Blocks -/

namespace Block

/-- What stands in front of a block's body. -/
def opening (b : Block) : String :=
  if startsWith b.content "\n" then Comment.trimEnd b.head else b.head

variable {b b' : Block}

theorem slashFree_opening (h : SlashFree b.head) : SlashFree b.opening :=
  slashFree_ite (slashFree_trimEnd h) h

/-- A block is left with what its opening and body are left with. -/
theorem hasLines_text (hcomment : IsComment b.comment) (hcomment' : b'.comment = "")
    (hkeyword : b'.keyword = b.keyword)
    (h : HasCode (b.opening ++ b.body) (b'.opening ++ b'.body)) : HasLines b.text b'.text := by
  obtain ⟨level, text, hrender⟩ := hcomment
  have hend : SlashFree (if closedByBrace b.keyword then "" else ";") :=
    slashFree_ite (by decide) (by decide)
  have htext : b.text = Comment.render level text ++
      (b.opening ++ b.body ++ if closedByBrace b.keyword then "" else ";") ++ "\n" := by
    rw [Block.text, hrender]
    simp only [opening, String.append_assoc]
  have htext' : b'.text =
      (b'.opening ++ b'.body ++ if closedByBrace b.keyword then "" else ";") ++ "\n" := by
    rw [Block.text, hcomment', hkeyword, String.empty_append]
    rfl
  rw [htext, htext']
  exact ((h.append hend).comment level text).hasLines

theorem slashFree_body (hinner : b.inner = "") (hcontent : SlashFree b.content) :
    SlashFree b.body := by
  rw [body, hinner, if_neg (by simp)]
  exact slashFree_ite hcontent (slashFree_ite (by decide) (by decide))

/-- The lines between braces are left with those of the other block. -/
theorem hasCode_of_lines {s t : List String} (hb : b.inner = Text.join "\n" s)
    (hb' : b' = { b with comment := "", inner := Text.join "\n" t })
    (hls : List.Forall₂ HasCode s t) (hne : ∀ l ∈ s, l ≠ "") (hne' : ∀ l ∈ t, l ≠ "")
    (hhead : SlashFree b.head) (hcontent : SlashFree b.content) :
    HasCode (b.opening ++ b.body) (b'.opening ++ b'.body) := by
  have hopening := slashFree_opening hhead
  subst hb'
  cases hls with
  | nil =>
    have hbody := slashFree_body hb hcontent
    have hsame : ({ b with comment := "", inner := Text.join "\n" [] } : Block).body = b.body := by
      rw [body, body, hb]
    rw [hsame]
    exact (slashFree_append.2 ⟨hopening, hbody⟩).hasCode
  | @cons l l' s t hl hls =>
    rw [List.forall_mem_cons] at hne hne'
    have hbody (c : Block) (s : List String) (hc : c.inner = Text.join "\n" s)
        (hls : Text.join "\n" s ≠ "") : c.opening ++ c.body =
          c.opening ++ (c.content ++ "\x7b") ++ "\n" ++ Text.join "\n" s ++ "\n" ++ "\x7d" := by
      have hopen : "\x7b\n" = "\x7b" ++ "\n" := rfl
      have hclose : "\n\x7d" = "\n" ++ "\x7d" := rfl
      rw [body, hc, if_pos hls, hopen, hclose]
      simp only [String.append_assoc]
    rw [hbody b _ hb (join_cons_ne_empty hne.1 _), hbody _ _ rfl (join_cons_ne_empty hne'.1 _)]
    have hstart : SlashFree (b.opening ++ (b.content ++ "\x7b")) := by
      rw [slashFree_append, slashFree_append]
      exact ⟨hopening, hcontent, by decide⟩
    exact (hstart.hasCode.newline (HasCode.join (.cons hl hls))).newline
      (SlashFree.hasCode (by decide))

/-- A block without lines whose content begins on a line of its own. -/
theorem hasCode_of_content {s t : List String}
    (hb : b.content = "\n" ++ Text.join "\n" s) (hinner : b.inner = "")
    (hb' : b' = { b with comment := "", content := "\n" ++ Text.join "\n" t })
    (hls : List.Forall₂ HasCode s t) (hhead : SlashFree b.head) :
    HasCode (b.opening ++ b.body) (b'.opening ++ b'.body) := by
  have htext (c : Block) (s : List String) (hc : c.content = "\n" ++ Text.join "\n" s)
      (hi : c.inner = "") :
      c.opening ++ c.body = Comment.trimEnd c.head ++ "\n" ++ Text.join "\n" s := by
    have hstarts : startsWith ("\n" ++ Text.join "\n" s) "\n" := startsWith_append _ _
    have hne : "\n" ++ Text.join "\n" s ≠ "" := fun heq =>
      absurd (String.append_eq_empty_iff.1 heq).1 (by decide)
    rw [opening, body, hc, hi, if_pos hstarts, if_neg (by simp), if_pos hne,
      String.append_assoc]
  rw [htext b s hb hinner, htext b' t (by rw [hb']) (by rw [hb', hinner]), hb']
  exact (slashFree_trimEnd hhead).hasCode.newline (HasCode.join hls)

/-- A block without comments besides the one above it. -/
theorem hasCode_of_slashFree (hhead : SlashFree b.head) (hcontent : SlashFree b.content)
    (hinner : b.inner = "") : HasCode (b.opening ++ b.body) (b.opening ++ b.body) :=
  SlashFree.hasCode
    (slashFree_append.2 ⟨slashFree_opening hhead, slashFree_body hinner hcontent⟩)

end Block

/-! ## Declarations -/

namespace Declaration

variable {d : Declaration}

theorem slashFree_head (h : SlashFree d.name) : SlashFree d.frame.head := by
  have hkeyword : SlashFree d.keyword.text := by
    cases d.keyword <;> decide
  have hname : SlashFree (if d.name = "" then "" else d.name ++ " ") :=
    slashFree_ite (by decide) (slashFree_append.2 ⟨h, by decide⟩)
  refine slashFree_append.2 ⟨slashFree_ite (by decide) (by decide), slashFree_ite (by decide) ?_⟩
  simp only [slashFree_append]
  exact ⟨⟨⟨hkeyword, by decide⟩, hname⟩, slashFree_ite (by decide) (by decide)⟩

theorem slashFree_mergeInterfaces {interfaces : List String}
    (h : ∀ name ∈ interfaces, SlashFree name) (hasFields : Bool) :
    SlashFree (Block.mergeInterfaces interfaces hasFields) :=
  slashFree_append.2 ⟨slashFree_join (by decide) h, slashFree_ite (by decide) (by decide)⟩

theorem comment_block (d : Declaration) : d.block.comment = Comment.render 0 d.comment := by
  unfold block
  cases d.body <;> rfl

theorem keyword_block (d : Declaration) : d.block.keyword = d.keyword.text := by
  unfold block
  cases d.body <;> rfl

theorem hasCode_block (h : d.Tidy) :
    HasCode (d.block.opening ++ d.block.body) (d.bare.block.opening ++ d.bare.block.body) := by
  have hhead := slashFree_head h.name
  have hbody := h.body
  obtain ⟨exported, keyword, name, comment, body⟩ := d
  cases body with
  | properties interfaces lines =>
    have hnil : ((lines.map Line.bare).map Line.text).isEmpty = (lines.map Line.text).isEmpty := by
      rw [List.isEmpty_map, List.isEmpty_map, List.isEmpty_map]
    refine Block.hasCode_of_lines (s := lines.map Line.text)
      (t := (lines.map Line.bare).map Line.text) rfl ?_ ?_ ?_ ?_ hhead
      (slashFree_mergeInterfaces hbody.1 _)
    · simp only [block, bare, Body.bare, Block.withBody, hnil]
      rfl
    · rw [List.map_map]
      exact forall₂_map_map fun l hl => Line.hasCode_text (hbody.2 l hl)
    · exact List.forall_mem_map.2 fun l _ => l.text_ne_empty
    · exact List.forall_mem_map.2 fun l _ => l.text_ne_empty
  | union members =>
    have hmembers : ∀ s ∈ members.map UnionMember.text, SlashFree s := List.forall_mem_map.2 hbody
    exact Block.hasCode_of_slashFree hhead (slashFree_join (by decide) hmembers) rfl
  | oneOf arms =>
    cases arms with
    | nil =>
      have hnever : SlashFree "never" := by decide
      exact Block.hasCode_of_slashFree hhead hnever rfl
    | cons a arms =>
      refine Block.hasCode_of_content (s := (a :: arms).map OneOf.Arm.text)
        (t := ((a :: arms).map OneOf.Arm.bare).map OneOf.Arm.text) rfl rfl rfl ?_ hhead
      rw [List.map_map]
      exact forall₂_map_map fun a ha => OneOf.Arm.hasCode_text (hbody a ha)
  | literals values =>
    refine Block.hasCode_of_content (s := values.map Enumerator.arm)
      (t := (values.map Enumerator.bare).map Enumerator.arm) rfl rfl rfl ?_ hhead
    rw [List.map_map]
    exact forall₂_map_map fun e he => Enumerator.hasCode_arm (hbody e he)
  | enumerators values =>
    have hnone : SlashFree "" := by decide
    refine Block.hasCode_of_lines (s := values.map Enumerator.line)
      (t := (values.map Enumerator.bare).map Enumerator.line) rfl rfl ?_ ?_ ?_ hhead hnone
    · rw [List.map_map]
      exact forall₂_map_map fun e he => Enumerator.hasCode_line (hbody e he)
    · exact List.forall_mem_map.2 fun e _ => e.line_ne_empty
    · exact List.forall_mem_map.2 fun e _ => e.line_ne_empty

/-- A declaration is left without its comments. -/
theorem hasLines_text (h : d.Tidy) : HasLines d.text d.bare.text := by
  refine Block.hasLines_text ⟨0, d.comment, d.comment_block⟩ ?_ ?_ (hasCode_block h)
  · rw [comment_block]
    rfl
  · rw [keyword_block, keyword_block]
    rfl

end Declaration

/-! ## Statements -/

theorem Statement.text_ne_empty (x : Statement) : x.text ≠ "" := by
  cases x with
  | declare d => exact append_ne_empty (by decide)
  | reexport => exact append_ne_empty (by decide)

theorem statementsText_eq_empty_iff {statements : List Statement} :
    statementsText statements = "" ↔ statements = [] := by
  constructor
  · intro h
    cases statements with
    | nil => rfl
    | cons x rest => exact absurd h (join_cons_ne_empty x.text_ne_empty _)
  · rintro rfl
    rfl

/-- A statement is left without its comments. -/
theorem Statement.hasLines_text {x : Statement} (h : x.Tidy) : HasLines x.text x.bare.text := by
  cases x with
  | declare d => exact Declaration.hasLines_text h
  | reexport identifier typesOnly =>
    have hend : " \x7d;\n" = " \x7d;" ++ "\n" := rfl
    have hcode : SlashFree ("export " ++ (if typesOnly then "type " else "") ++ "\x7b " ++
        identifier ++ " \x7d;") := by
      simp only [slashFree_append]
      exact ⟨⟨⟨⟨by decide, slashFree_ite (by decide) (by decide)⟩, by decide⟩, h⟩, by decide⟩
    rw [bare, text, hend, ← String.append_assoc]
    exact hcode.hasCode.hasLines

/-- What a definition becomes is left without its comments. -/
theorem withoutComments_statementsText {statements : List Statement}
    (h : ∀ x ∈ statements, x.Tidy) :
    withoutComments (statementsText statements) = statementsText (statements.map Statement.bare) := by
  refine HasLines.withoutComments_eq (HasLines.join ?_)
  rw [List.map_map]
  exact forall₂_map_map fun x hx => Statement.hasLines_text (h x hx)

end SdlTypes
