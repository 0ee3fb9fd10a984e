import Mathlib.Data.List.Chain
import Mathlib.Data.List.Forall2
import Mathlib.Tactic.SplitIfs
import SdlTypes.Declaration.Comment
import SdlTypes.Proofs.Pieces

/-!
# Removing comments

`Text.withoutComments` deletes the documentation comments of a text, each with the blanks before
and the line break behind it. A rendered comment is deleted as a whole, whatever is written in it
(`Text.afterComment?_render`): no star stands before a slash in it but at its end.

What is left of a text is followed line by line. A text has some code (`Text.HasCode`) if it is
left with that code wherever it stands in front of the end of a line; code without slashes has
itself, and the code of lines is the lines of code (`Text.HasCode.join`).
-/

namespace SdlTypes.Text

/-! ## Texts with separators -/

/-- A piece of a list between separators is a part of the list. -/
theorem isInfix_of_mem_splitOnP {α : Type*} (p : α → Bool) (l : List α) :
    ∀ piece ∈ l.splitOnP p, piece <:+: l := by
  suffices h : ∃ first rest, l.splitOnP p = first :: rest ∧ first <+: l ∧
      ∀ piece ∈ rest, piece <:+: l by
    obtain ⟨first, rest, heq, hfirst, hrest⟩ := h
    rw [heq, List.forall_mem_cons]
    exact ⟨hfirst.isInfix, hrest⟩
  induction l with
  | nil => exact ⟨[], [], rfl, List.prefix_rfl, by simp⟩
  | cons x l ih =>
    obtain ⟨first, rest, heq, hfirst, hrest⟩ := ih
    have hcons : ∀ piece ∈ rest, piece <:+: x :: l := fun piece h =>
      (hrest piece h).trans (List.suffix_cons x l).isInfix
    rw [List.splitOnP_cons_eq_if_modifyHead, heq]
    split_ifs with hx
    · refine ⟨[], first :: rest, rfl, List.nil_prefix, ?_⟩
      rw [List.forall_mem_cons]
      exact ⟨hfirst.isInfix.trans (List.suffix_cons x l).isInfix, hcons⟩
    · exact ⟨x :: first, rest, rfl, List.prefix_cons_inj x |>.2 hfirst, hcons⟩

/-! ## The end of a comment -/

/-- Characters among which no star stands before a slash. -/
def Unended (s : List Char) : Prop :=
  s.IsChain fun a b => ¬(a = '*' ∧ b = '/')

theorem Unended.append {s t : List Char} (hs : Unended s) (ht : Unended t)
    (h : ∀ c ∈ t.head?, c ≠ '/') : Unended (s ++ t) :=
  List.IsChain.append hs ht fun _ _ c hc hboth => h c hc hboth.2

/-- A text before which something other than a star stands goes on. -/
theorem Unended.cons {c : Char} {s : List Char} (hc : c ≠ '*') (hs : Unended s) :
    Unended (c :: s) :=
  List.IsChain.cons hs fun _ _ hboth => hc hboth.1

/-- A text that does not end the comment is cut where the comment ends. -/
theorem cutChars?_of_unended {s : List Char} (h : Unended s) (behind : List Char) :
    cutChars? ['*', '/'] (s ++ '*' :: '/' :: behind) = some (s, behind) := by
  induction s with
  | nil => rfl
  | cons c s ih =>
    have hnot : ['*', '/'].isPrefixOf (c :: (s ++ '*' :: '/' :: behind)) = false := by
      cases s with
      | nil => simp [List.isPrefixOf]
      | cons d s =>
        have := (List.isChain_cons_cons.1 h).1
        simp only [List.cons_append, List.isPrefixOf, Bool.and_true, Bool.and_eq_false_iff,
          beq_eq_false_iff_ne]
        by_cases hc : c = '*'
        · exact .inr fun hd => this ⟨hc, hd.symm⟩
        · exact .inl (Ne.symm hc)
    rw [List.cons_append, cutChars?, hnot, ih h.tail]
    rfl

/-- Protected characters do not end a comment. -/
theorem unended_protect (s : List Char) : Unended (Comment.protect s) := by
  have hhead : ∀ s : List Char, (Comment.protect s).head? = s.head? := by
    intro s
    unfold Comment.protect
    split <;> rfl
  fun_induction Comment.protect s with
  | case1 rest ih =>
    exact List.IsChain.cons (Unended.cons (by decide) (Unended.cons (by decide) ih)) (by simp)
  | case2 c rest hrest ih =>
    refine List.IsChain.cons ih fun d hd hboth => ?_
    rw [hhead] at hd
    obtain ⟨rest, rfl⟩ : ∃ tail, rest = d :: tail := by
      cases rest with
      | nil => cases hd
      | cons e tail => exact ⟨tail, by rw [Option.some.inj hd]⟩
    exact hrest rest hboth.1 (by rw [hboth.2])
  | case3 => exact .nil

/-! ## Rendered comments -/

/-- Nothing is removed before a character that stays. -/
theorem dropEndWhile_append_cons {p : Char → Bool} {c : Char} (h : p c = false)
    (s t : List Char) : dropEndWhile p (s ++ c :: t) = s ++ c :: dropEndWhile p t := by
  have hdrop : (t.reverse ++ c :: s.reverse).dropWhile p =
      t.reverse.dropWhile p ++ c :: s.reverse := by
    rw [List.dropWhile_append]
    split_ifs with hempty
    · rw [List.isEmpty_iff.1 hempty, List.dropWhile_cons_of_neg (by simp [h]), List.nil_append]
    · rfl
  simp only [dropEndWhile, List.reverse_append, List.reverse_cons, List.append_assoc,
    List.singleton_append, hdrop, List.reverse_reverse]

theorem dropEndWhile_concat {p : Char → Bool} {c : Char} (h : p c = false) (s : List Char) :
    dropEndWhile p (s ++ [c]) = s ++ [c] :=
  dropEndWhile_append_cons h s []

/-- At the end of a text without them, the characters behind it are dropped. -/
theorem dropEndWhile_append {p : Char → Bool} {s t : List Char} (ht : ∀ c ∈ t, p c = true)
    (hs : ∀ c ∈ s, p c = false) : dropEndWhile p (s ++ t) = s := by
  have hkept : s.reverse.dropWhile p = s.reverse := by
    cases hrev : s.reverse with
    | nil => rfl
    | cons c rest =>
      have hc : c ∈ s := List.mem_reverse.1 (hrev ▸ List.mem_cons_self)
      rw [List.dropWhile_cons_of_neg (by simp [hs c hc])]
  rw [dropEndWhile, List.reverse_append, List.dropWhile_append_of_pos (by simpa using ht), hkept,
    List.reverse_reverse]

theorem dropEndWhile_isPrefix (p : Char → Bool) (s : List Char) : dropEndWhile p s <+: s := by
  rw [dropEndWhile, ← List.reverse_suffix, List.reverse_reverse]
  exact List.dropWhile_suffix p

theorem toList_indent (level : Nat) (s : String) :
    (indent level s).toList = List.replicate (2 * level) ' ' ++ s.toList := by
  rw [indent, String.toList_append, String.toList_ofList]

/-- A line that ends with something other than a blank is not made shorter. -/
theorem toList_trimEnd_indent (level : Nat) {s : String} {c : Char}
    (h : s.toList.getLast? = some c) (hc : c ≠ ' ') :
    (Comment.trimEnd (indent level s)).toList = List.replicate (2 * level) ' ' ++ s.toList := by
  obtain ⟨front, hs⟩ := List.getLast?_eq_some_iff.1 h
  rw [Comment.trimEnd, String.toList_ofList, toList_indent, hs, ← List.append_assoc]
  exact dropEndWhile_concat (by simpa using hc) _

theorem unended_replicate_append (n : Nat) {s : List Char} (h : Unended s) :
    Unended (List.replicate n ' ' ++ s) := by
  induction n with
  | zero => exact h
  | succ n ih => exact Unended.cons (by decide) ih

theorem unended_trimEnd_indent (level : Nat) {s : String} (h : Unended s.toList) :
    Unended (Comment.trimEnd (indent level s)).toList := by
  rw [Comment.trimEnd, String.toList_ofList, toList_indent]
  exact List.IsChain.prefix (unended_replicate_append _ h) (dropEndWhile_isPrefix _ _)

theorem unended_join {ss : List String} (h : ∀ s ∈ ss, Unended s.toList) :
    Unended (join "\n" ss).toList := by
  induction ss with
  | nil => exact .nil
  | cons s rest ih =>
    rw [List.forall_mem_cons] at h
    cases rest with
    | nil => exact h.1
    | cons t rest =>
      rw [toList_join_cons_cons, List.append_assoc]
      exact h.1.append (Unended.cons (by decide) (ih h.2)) fun c hc => by
        rw [← Option.some.inj hc]
        decide

/-- A rendered comment is blanks, the mark at its start, something that does not end it, and the
mark at its end with a line break. -/
theorem toList_render (level : Nat) {text : String} (h : text ≠ "") :
    ∃ inside, Unended ('*' :: inside) ∧ (Comment.render level text).toList =
      List.replicate (2 * level) ' ' ++
        '/' :: '*' :: '*' :: (inside ++ '*' :: '/' :: '\n' :: []) := by
  have hpieces : ∀ line ∈ split '\n' (String.ofList (Comment.protect text.toList)),
      Unended line.toList := by
    intro line hline
    rw [split, String.toList_ofList, List.mem_map] at hline
    obtain ⟨piece, hpiece, rfl⟩ := hline
    rw [String.toList_ofList]
    exact List.IsChain.infix (unended_protect _) (isInfix_of_mem_splitOnP _ _ piece hpiece)
  have hne : split '\n' (String.ofList (Comment.protect text.toList)) ≠ [] := by
    rw [split, Ne, List.map_eq_nil_iff]
    exact List.splitOnP_ne_nil _ _
  unfold Comment.render
  rw [if_neg h]
  split
  · next line heq =>
    refine ⟨' ' :: (line.toList ++ [' ']), .cons_cons (by decide) (Unended.cons (by decide) ?_), ?_⟩
    · exact (hpieces line (by simp [heq])).append (Unended.cons (by decide) .nil) (by simp)
    · simp [toList_indent]
  · next lines _ =>
    generalize split '\n' (String.ofList (Comment.protect text.toList)) = lines at hpieces hne
    have hfirst := toList_trimEnd_indent level (s := "/**") (c := '*') rfl (by decide)
    have hlast := toList_trimEnd_indent level (s := " */\n") (c := '\n') rfl (by decide)
    have hinner : Unended (join "\n" (lines.map fun line =>
        Comment.trimEnd (indent level (" * " ++ line)))).toList := by
      refine unended_join fun s hs => ?_
      obtain ⟨line, hline, rfl⟩ := List.mem_map.1 hs
      refine unended_trimEnd_indent level ?_
      have hstar : (" * " ++ line).toList = ' ' :: '*' :: ' ' :: line.toList := by
        rw [String.toList_append]
        rfl
      rw [hstar]
      exact Unended.cons (by decide) (List.IsChain.cons
        (Unended.cons (by decide) (hpieces line hline)) (by simp))
    have htext : ("/**" :: lines.map (" * " ++ ·) ++ [" */\n"]).map
        (fun line => Comment.trimEnd (indent level line)) =
          [Comment.trimEnd (indent level "/**")] ++
            (lines.map (fun line => Comment.trimEnd (indent level (" * " ++ line))) ++
              [Comment.trimEnd (indent level " */\n")]) := by
      rw [List.map_append, List.map_cons, List.map_map]
      rfl
    refine ⟨'\n' :: ((join "\n" (lines.map fun line =>
      Comment.trimEnd (indent level (" * " ++ line)))).toList ++
        '\n' :: (List.replicate (2 * level) ' ' ++ [' '])), ?_, ?_⟩
    · refine .cons_cons (by decide) (Unended.cons (by decide) (hinner.append ?_ ?_))
      · exact Unended.cons (by decide) (unended_replicate_append _ (Unended.cons (by decide) .nil))
      · exact fun c hc => by rw [← Option.some.inj hc]; decide
    · have hmap : lines.map (fun line => Comment.trimEnd (indent level (" * " ++ line))) ≠ [] := by
        rwa [Ne, List.map_eq_nil_iff]
      rw [htext, join_append _ (by simp) (by simp), join_append _ hmap (by simp)]
      simp only [join_singleton, String.toList_append, hfirst, hlast]
      simp

/-! ## Removal -/

/-- What stands behind the comment that some characters begin with: behind blanks, `/**`, all up
to the first `*/`, and a line break. -/
def afterComment? (s : List Char) : Option (List Char) :=
  match s.dropWhile (· = ' ') with
  | '/' :: '*' :: '*' :: rest =>
    match cutChars? ['*', '/'] rest with
    | some (_, '\n' :: behind) => some behind
    | _ => none
  | _ => none

theorem length_cutChars?_le {mark s before after : List Char}
    (h : cutChars? mark s = some (before, after)) : after.length ≤ s.length := by
  induction s generalizing before with
  | nil => cases h
  | cons c s ih =>
    unfold cutChars? at h
    split_ifs at h
    · cases h
      rw [List.length_drop]
      omega
    · obtain ⟨⟨_, _⟩, hcut, heq⟩ := Option.map_eq_some_iff.1 h
      cases heq
      exact (ih hcut).trans (Nat.le_succ _)

theorem length_afterComment?_lt {s behind : List Char} (h : afterComment? s = some behind) :
    behind.length < s.length := by
  unfold afterComment? at h
  have hdrop := (List.dropWhile_sublist (· = ' ') (l := s)).length_le
  split at h
  · next rest heq =>
    rw [heq] at hdrop
    split at h
    · next before behind hcut =>
      cases h
      have := length_cutChars?_le hcut
      simp only [List.length_cons] at hdrop this
      omega
    · cases h
  · cases h

/-- Some characters without the comments in them. -/
def deleteComments (s : List Char) : List Char :=
  match s with
  | [] => []
  | c :: rest =>
    match _found : afterComment? (c :: rest) with
    | some behind => deleteComments behind
    | none => c :: deleteComments rest
termination_by s.length
decreasing_by
  · exact length_afterComment?_lt _found
  · exact Nat.lt_succ_self _

/-- A text without its comments. -/
def withoutComments (s : String) : String :=
  String.ofList (deleteComments s.toList)

theorem deleteComments_of_some {s behind : List Char} (h : afterComment? s = some behind) :
    deleteComments s = deleteComments behind := by
  cases s with
  | nil => cases h
  | cons c s =>
    rw [deleteComments]
    split
    · next found heq =>
      rw [h] at heq
      cases heq
      rfl
    · next heq =>
      rw [h] at heq
      cases heq

theorem deleteComments_of_none {c : Char} {s : List Char} (h : afterComment? (c :: s) = none) :
    deleteComments (c :: s) = c :: deleteComments s := by
  rw [deleteComments]
  split
  · next heq =>
    rw [h] at heq
    cases heq
  · rfl

/-- No comment begins in front of code without slashes. -/
theorem afterComment?_code {s : List Char} (h : '/' ∉ s) (rest : List Char) :
    afterComment? (s ++ '\n' :: rest) = none := by
  induction s with
  | nil => rfl
  | cons c s ih =>
    rw [List.mem_cons, not_or] at h
    by_cases hc : c = ' '
    · rw [← ih h.2, afterComment?, afterComment?, List.cons_append,
        List.dropWhile_cons_of_pos (by simpa using hc)]
    · rw [afterComment?, List.cons_append, List.dropWhile_cons_of_neg (by simpa using hc)]
      split
      · next heq => exact absurd (List.cons.inj heq).1.symm h.1
      · rfl

/-- Code without slashes stays as it is up to the end of its last line. -/
theorem deleteComments_code {s : List Char} (h : '/' ∉ s) (rest : List Char) :
    deleteComments (s ++ '\n' :: rest) = s ++ '\n' :: deleteComments rest := by
  induction s with
  | nil => exact deleteComments_of_none (afterComment?_code h rest)
  | cons c s ih =>
    have hnone : afterComment? (c :: (s ++ '\n' :: rest)) = none := afterComment?_code h rest
    rw [List.cons_append, deleteComments_of_none hnone, List.cons_append,
      ih fun hmem => h (List.mem_cons_of_mem c hmem)]

/-- A rendered comment is found as a whole. -/
theorem afterComment?_render (level : Nat) {text : String} (h : text ≠ "") (rest : List Char) :
    afterComment? ((Comment.render level text).toList ++ rest) = some rest := by
  obtain ⟨inside, hstar, heq⟩ := toList_render level h
  have hinside : Unended inside := hstar.tail
  have hblanks : ∀ (n : Nat) (s : List Char),
      (List.replicate n ' ' ++ '/' :: s).dropWhile (· = ' ') = '/' :: s := by
    intro n s
    induction n with
    | zero => rfl
    | succ n ih => exact ih
  rw [heq, afterComment?, List.append_assoc, List.cons_append, hblanks]
  simp only [List.cons_append, List.append_assoc, List.nil_append, cutChars?_of_unended hinside]

/-- A rendered comment is deleted as a whole, whatever is written in it. -/
theorem deleteComments_render (level : Nat) (text : String) (rest : List Char) :
    deleteComments ((Comment.render level text).toList ++ rest) = deleteComments rest := by
  by_cases h : text = ""
  · rw [h]
    rfl
  · exact deleteComments_of_some (afterComment?_render level h rest)

/-! ## Code -/

/-- A text in which there is no slash. -/
def SlashFree (s : String) : Prop :=
  '/' ∉ s.toList

/-- The text is left with the code wherever it stands in front of the end of a line. -/
def HasCode (text code : String) : Prop :=
  ∀ tail rest : List Char, '/' ∉ tail →
    deleteComments (text.toList ++ (tail ++ '\n' :: rest)) =
      code.toList ++ (tail ++ '\n' :: deleteComments rest)

/-- The text consists of whole lines and is left with those of the code. -/
def HasLines (text code : String) : Prop :=
  ∀ rest : List Char, deleteComments (text.toList ++ rest) = code.toList ++ deleteComments rest

@[simp] theorem slashFree_append {s t : String} : SlashFree (s ++ t) ↔ SlashFree s ∧ SlashFree t := by
  rw [SlashFree, String.toList_append, List.mem_append, not_or]
  rfl

theorem slashFree_join {separator : String} (hs : SlashFree separator) {ss : List String}
    (h : ∀ s ∈ ss, SlashFree s) : SlashFree (join separator ss) :=
  not_mem_join hs h

theorem SlashFree.hasCode {s : String} (h : SlashFree s) : HasCode s s := by
  intro tail rest htail
  have hboth : '/' ∉ s.toList ++ tail := by
    rw [List.mem_append, not_or]
    exact ⟨h, htail⟩
  rw [← List.append_assoc, deleteComments_code hboth, List.append_assoc]

namespace HasCode

variable {s t u v : String}

/-- Code may go on behind a text. -/
theorem append (h : HasCode s t) (hu : SlashFree u) : HasCode (s ++ u) (t ++ u) := by
  intro tail rest htail
  have hboth : '/' ∉ u.toList ++ tail := by
    rw [List.mem_append, not_or]
    exact ⟨hu, htail⟩
  have := h (u.toList ++ tail) rest hboth
  simpa only [String.toList_append, List.append_assoc] using this

/-- The code of two texts on lines of their own is that of the first, then the second. -/
theorem newline (h : HasCode s t) (h' : HasCode u v) :
    HasCode (s ++ "\n" ++ u) (t ++ "\n" ++ v) := by
  intro tail rest htail
  have := h [] (u.toList ++ (tail ++ '\n' :: rest)) List.not_mem_nil
  rw [h' tail rest htail] at this
  simpa [String.toList_append] using this

/-- A comment above a text does not count. -/
theorem comment (h : HasCode s t) (level : Nat) (text : String) :
    HasCode (Comment.render level text ++ s) t := by
  intro tail rest htail
  rw [String.toList_append, List.append_assoc, deleteComments_render, h tail rest htail]

theorem join {ss ts : List String} (h : List.Forall₂ HasCode ss ts) :
    HasCode (Text.join "\n" ss) (Text.join "\n" ts) := by
  induction h with
  | nil => exact SlashFree.hasCode List.not_mem_nil
  | @cons s t ss ts hs hrest ih =>
    cases hrest with
    | nil => exact hs
    | cons =>
      rw [join_cons_cons, join_cons_cons]
      exact hs.newline ih

theorem hasLines (h : HasCode s t) : HasLines (s ++ "\n") (t ++ "\n") := by
  intro rest
  simpa [String.toList_append] using h [] rest List.not_mem_nil

end HasCode

namespace HasLines

/-- Whole lines with a line break between them and others are whole lines. -/
theorem join {ss ts : List String} (h : List.Forall₂ HasLines ss ts) :
    HasLines (Text.join "\n" ss) (Text.join "\n" ts) := by
  induction h with
  | nil => exact fun _ => rfl
  | @cons s t ss ts hs hrest ih =>
    cases hrest with
    | nil => exact hs
    | cons =>
      intro rest
      rw [join_cons_cons, join_cons_cons]
      simp only [String.toList_append, List.append_assoc, hs _]
      have hbreak (rest : List Char) :
          deleteComments ("\n".toList ++ rest) = "\n".toList ++ deleteComments rest :=
        deleteComments_code List.not_mem_nil rest
      rw [hbreak, ih]

/-- Whole lines without their comments are the code. -/
theorem withoutComments_eq {s t : String} (h : HasLines s t) : withoutComments s = t := by
  have := h []
  rw [List.append_nil, deleteComments, List.append_nil] at this
  rw [withoutComments, this, String.ofList_toList]

end HasLines

end SdlTypes.Text
