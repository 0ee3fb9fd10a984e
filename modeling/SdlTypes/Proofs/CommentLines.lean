import SdlTypes.Declaration.MemberComment
import SdlTypes.Proofs.CommentRemoval

/-!
# The lines of comments

A comment must not end before its end, or what is written in the schema would become code. This is
`Comment.IsSealed`: a comment begins and ends as it should, the mark that ends comments stands
nowhere else in it, and there is one line for a text on one line, and otherwise one for each line
of the text and two around them.

`Comment.lines` writes the lines down without the machinery, and `Comment.lines_render` says that
they are what is rendered. `Comment.isSealed_comments` says of every text and every member that its
comment is sealed, whatever the text, the description and the reason of a deprecation hold.
-/

namespace SdlTypes

namespace Text

/-! ## The mark that ends comments -/

/-- A mark that stands between characters without another one is the only one. -/
theorem eq_of_unended {s t before after : List Char} (hs : Unended s) (ht : Unended ('/' :: t))
    (h : s ++ '*' :: '/' :: t = before ++ '*' :: '/' :: after) : after = t := by
  have hmark (a b : List Char) : ¬Unended (a ++ '*' :: '/' :: b) := fun hunended =>
    (List.isChain_append_cons_cons.1 hunended).2.1 ⟨rfl, rfl⟩
  rcases List.append_eq_append_iff.1 h with ⟨between, rfl, hrest⟩ | ⟨between, rfl, hrest⟩
  · cases between with
    | nil =>
      cases hrest
      rfl
    | cons c between =>
      rw [(List.cons.inj hrest).2] at ht
      exact absurd ht (hmark between after)
  · match between, hrest with
    | [], hrest =>
      cases hrest
      rfl
    | [c], hrest => cases hrest
    | c :: d :: between, hrest =>
      cases hrest
      exact absurd hs (hmark before between)

/-! ## Lines without blanks at their end -/

theorem endsWith_trimEnd (s : String) : endsWith (Comment.trimEnd s) " " = false := by
  rw [endsWith, ← Bool.not_eq_true, List.isSuffixOf_iff_suffix]
  rintro ⟨front, heq⟩
  have hdrop : (Comment.trimEnd s).toList = (s.toList.reverse.dropWhile (· = ' ')).reverse :=
    String.toList_ofList
  rw [hdrop] at heq
  have hhead : (s.toList.reverse.dropWhile (· = ' ')).head? = some ' ' := by
    rw [← List.reverse_reverse (s.toList.reverse.dropWhile (· = ' ')), ← heq]
    simp
  have := List.head?_dropWhile_not (fun c : Char => decide (c = ' ')) s.toList.reverse
  rw [hhead] at this
  cases this

/-- The indentation of a line that has more than blanks is kept. -/
theorem startsWith_trimEnd_indent (level : Nat) {s : String} {front rest : List Char} {c : Char}
    (hs : s.toList = front ++ c :: rest) (hc : c ≠ ' ') :
    startsWith (Comment.trimEnd (indent level s)) (indent level "") = true := by
  have hdrop : dropEndWhile (· = ' ') ((indent level s).toList) =
      (indent level "").toList ++ (front ++ c :: dropEndWhile (· = ' ') rest) := by
    rw [toList_indent, toList_indent, hs, ← List.append_assoc,
      dropEndWhile_append_cons (decide_eq_false hc)]
    simp
  rw [startsWith, List.isPrefixOf_iff_prefix, Comment.trimEnd, String.toList_ofList, hdrop]
  exact List.prefix_append _ _

theorem newline_notMem_indent (level : Nat) {s : String} (h : '\n' ∉ s.toList) :
    '\n' ∉ (indent level s).toList := by
  rw [toList_indent, List.mem_append, not_or]
  exact ⟨fun hmem => absurd (List.eq_of_mem_replicate hmem) (by decide), h⟩

theorem newline_notMem_trimEnd {s : String} (h : '\n' ∉ s.toList) :
    '\n' ∉ (Comment.trimEnd s).toList := by
  rw [Comment.trimEnd, String.toList_ofList]
  exact fun hmem => h ((dropEndWhile_isPrefix _ _).subset hmem)

end Text

namespace Comment

open Text

/-! ## Protected lines -/

/-- The lines of a text are protected one by one. -/
theorem splitOn_protect (s : List Char) :
    (protect s).splitOn '\n' = (s.splitOn '\n').map protect := by
  have hplain {c : Char} (hc : c ≠ '\n') (t : List Char) :
      (c :: t).splitOn '\n' = (t.splitOn '\n').modifyHead (c :: ·) := by
    rw [List.splitOn_cons_eq_if_modifyHead, if_neg (by simpa using hc)]
  fun_induction protect s with
  | case1 rest ih =>
    obtain ⟨first, later, heq⟩ := List.exists_cons_of_ne_nil (List.splitOn_ne_nil '\n' rest)
    have hstar : '*' ≠ '\n' := by decide
    have hbackslash : '\\' ≠ '\n' := by decide
    have hslash : '/' ≠ '\n' := by decide
    rw [hplain hstar, hplain hbackslash, hplain hslash, hplain hstar, hplain hslash, ih, heq]
    rfl
  | case2 c rest hrest ih =>
    by_cases hc : c = '\n'
    · rw [hc, List.splitOn_cons_eq_if_modifyHead, List.splitOn_cons_eq_if_modifyHead, ih]
      rfl
    · obtain ⟨first, later, heq⟩ := List.exists_cons_of_ne_nil (List.splitOn_ne_nil '\n' rest)
      -- the characters of the line stand behind this one in the text, too
      have hfirst : ∀ tail, c = '*' → first = '/' :: tail → False := by
        rintro tail hstar rfl
        have hjoin : ['\n'].intercalate (rest.splitOn '\n') = rest := List.intercalate_splitOn '\n'
        rw [heq] at hjoin
        cases later with
        | nil => exact hrest tail hstar (by rw [← hjoin, List.intercalate_singleton])
        | cons next later =>
          rw [List.intercalate_cons_cons] at hjoin
          exact hrest _ hstar hjoin.symm
      rw [hplain hc, hplain hc, ih, heq, List.map_cons, List.modifyHead_cons, List.modifyHead_cons,
        List.map_cons, protect.eq_2 c first hfirst]
  | case3 => rfl

/-- A text as the lines of a comment, which the line break behind them ends. -/
def lines (level : Nat) (text : String) : List String :=
  if '\n' ∈ text.toList then
    ("/**" :: ((split '\n' text).map fun line => String.ofList (protect line.toList)).map
      (" * " ++ ·) ++ [" */"]).map fun line => trimEnd (indent level line)
  else [indent level ("/** " ++ String.ofList (protect text.toList) ++ " */")]

theorem split_protect (text : String) :
    split '\n' (String.ofList (protect text.toList)) =
      (split '\n' text).map fun line => String.ofList (protect line.toList) := by
  rw [split, String.toList_ofList, splitOn_protect, split, List.map_map, List.map_map]
  refine List.map_congr_left fun line _ => ?_
  simp

/-- The line break behind the last line of a block may stand in the line or behind it. -/
theorem join_block (level : Nat) {front : List String} (hne : front ≠ []) :
    Text.join "\n" ((front ++ [" */\n"]).map fun line => trimEnd (indent level line)) =
      Text.join "\n"
        (((front ++ [" */"]).map fun line => trimEnd (indent level line)) ++ [""]) := by
  have hlast : trimEnd (indent level " */\n") = trimEnd (indent level " */") ++ "\n" := by
    refine String.toList_injective ?_
    rw [String.toList_append, toList_trimEnd_indent level (c := '\n') rfl (by decide),
      toList_trimEnd_indent level (c := '/') rfl (by decide), List.append_assoc]
    rfl
  have hmap : front.map (fun line => trimEnd (indent level line)) ≠ [] := by
    rwa [Ne, List.map_eq_nil_iff]
  rw [List.map_append, List.map_append, List.append_assoc, join_append _ hmap (by simp),
    join_append _ hmap (by simp), List.map_singleton, List.map_singleton, List.singleton_append,
    join_cons_cons, join_singleton, join_singleton, hlast, String.append_empty]

theorem exists_split_of_mem {s : String} (h : '\n' ∈ s.toList) :
    ∃ first next later, split '\n' s = first :: next :: later := by
  obtain ⟨front, behind, hs, hfront⟩ := List.eq_append_cons_of_mem h
  obtain ⟨next, later, hbehind⟩ := List.exists_cons_of_ne_nil (List.splitOn_ne_nil '\n' behind)
  refine ⟨String.ofList front, String.ofList next, later.map String.ofList, ?_⟩
  rw [split, hs, List.splitOn_append_cons_self_of_not_mem hfront, hbehind]
  rfl

/-- A rendered comment is its lines, each with a line break behind it. -/
theorem render_eq_join_lines (level : Nat) {text : String} (h : text ≠ "") :
    render level text = Text.join "\n" (lines level text ++ [""]) := by
  rw [render, if_neg h, split_protect, lines]
  split_ifs with hbreak
  · obtain ⟨first, next, later, hsplit⟩ := exists_split_of_mem hbreak
    rw [hsplit]
    exact join_block level (List.cons_ne_nil _ _)
  · rw [split, List.splitOn_eq_singleton hbreak]
    simp only [List.map_singleton, String.toList_ofList, List.singleton_append, join_cons_cons,
      join_singleton, String.append_empty, indent, String.append_assoc]
    rfl

/-! ## Sealed comments -/

/-- A comment of a text at some level of indentation, with a line break behind it: it ends at its
end and nowhere before, and it has one line for a text on one line, and for one with line breaks as
many as this has and two more, which are indented and do not end in blanks. -/
structure IsSealed (level : Nat) (text comment : String) : Prop where
  opening : ∃ rest, comment = indent level ("/**" ++ rest)
  closing : ∃ before, comment = before ++ "*/" ++ "\n"
  once : ∀ before after, comment = before ++ "*/" ++ after → after = "\n"
  lines : ∃ lines : List String, split '\n' comment = lines ++ [""] ∧
    lines.length = (if '\n' ∈ text.toList then (split '\n' text).length + 2 else 1) ∧
    (∀ line ∈ lines, startsWith line (indent level "") = true) ∧
    ('\n' ∈ text.toList → ∀ line ∈ lines, endsWith line " " = false)

theorem newline_notMem_protect {s : List Char} (h : '\n' ∉ s) : '\n' ∉ protect s := by
  have hsplit := splitOn_protect s
  rw [List.splitOn_eq_singleton h, List.map_singleton] at hsplit
  exact not_mem_of_mem_splitOn (hsplit ▸ List.mem_singleton_self _)

theorem length_lines (level : Nat) (text : String) :
    (lines level text).length =
      if '\n' ∈ text.toList then (split '\n' text).length + 2 else 1 := by
  rw [lines]
  split_ifs
  · simp
  · rfl

/-- What is so of the lines of a block is so of its first and last line, and of those of the text,
which have a star in front. -/
theorem forall_mem_lines {P : String → Prop} (level : Nat) (text : String)
    (hblock : ∀ s front rest, s.toList = front ++ '*' :: rest → '\n' ∉ s.toList →
      P (trimEnd (indent level s)))
    (hline : '\n' ∉ text.toList →
      P (indent level ("/** " ++ String.ofList (protect text.toList) ++ " */"))) :
    ∀ line ∈ lines level text, P line := by
  rw [lines]
  split_ifs with hbreak
  · rw [List.forall_mem_map, List.forall_mem_append, List.forall_mem_cons,
      List.forall_mem_singleton]
    have hfirst := hblock "/**" ['/'] ['*'] rfl (by decide)
    have hlast := hblock " */" [' '] ['/'] rfl (by decide)
    refine ⟨⟨hfirst, ?_⟩, hlast⟩
    rw [List.forall_mem_map, List.forall_mem_map]
    intro line hline
    have htoList : (" * " ++ String.ofList (protect line.toList)).toList =
        [' '] ++ '*' :: ' ' :: protect line.toList := by
      simp
    refine hblock _ _ _ htoList ?_
    rw [htoList]
    simpa using newline_notMem_protect (not_mem_of_mem_split hline)
  · exact List.forall_mem_singleton.2 (hline hbreak)

theorem lines_render (level : Nat) {text : String} (h : text ≠ "") :
    split '\n' (render level text) = lines level text ++ [""] := by
  rw [render_eq_join_lines level h]
  refine split_join rfl (by simp) ?_
  rw [List.forall_mem_append, List.forall_mem_singleton]
  refine ⟨forall_mem_lines level text ?_ ?_, List.not_mem_nil⟩
  · exact fun s _ _ _ hbreak => newline_notMem_trimEnd (newline_notMem_indent level hbreak)
  · intro hbreak
    refine newline_notMem_indent level ?_
    simpa using newline_notMem_protect hbreak

theorem startsWith_of_mem_lines (level : Nat) (text : String) :
    ∀ line ∈ lines level text, startsWith line (indent level "") = true := by
  refine forall_mem_lines level text ?_ ?_
  · exact fun s front rest hs _ => startsWith_trimEnd_indent level hs (by decide)
  · intro _
    rw [indent, indent, String.append_empty]
    exact startsWith_append _ _

theorem endsWith_of_mem_lines (level : Nat) {text : String} (h : '\n' ∈ text.toList) :
    ∀ line ∈ lines level text, endsWith line " " = false :=
  forall_mem_lines level text (fun _ _ _ _ _ => endsWith_trimEnd _) fun hbreak => absurd h hbreak

theorem isSealed_render (level : Nat) {text : String} (h : text ≠ "") :
    IsSealed level text (render level text) := by
  obtain ⟨inside, hinside, htoList⟩ := toList_render level h
  -- all that stands in front of the mark
  obtain ⟨front, hfront, hmarks⟩ : ∃ front, Unended front ∧
      (render level text).toList = front ++ '*' :: '/' :: ['\n'] := by
    refine ⟨List.replicate (2 * level) ' ' ++ '/' :: '*' :: '*' :: inside,
      unended_replicate_append _ (.cons (by decide) (.cons_cons (by decide) hinside)), ?_⟩
    rw [htoList, List.append_assoc]
    rfl
  exact {
    opening := by
      refine ⟨String.ofList (inside ++ ['*', '/', '\n']), String.toList_injective ?_⟩
      rw [htoList, toList_indent]
      simp
    closing := by
      refine ⟨String.ofList front, String.toList_injective ?_⟩
      rw [hmarks]
      simp
    once := by
      intro before after heq
      have hchars : (render level text).toList = before.toList ++ '*' :: '/' :: after.toList := by
        rw [heq]
        simp
      rw [hmarks] at hchars
      have hafter := eq_of_unended hfront (.cons_cons (by decide) (.singleton _)) hchars
      exact String.toList_injective hafter
    lines := ⟨lines level text, lines_render level h, length_lines level text,
      startsWith_of_mem_lines level text, fun hbreak => endsWith_of_mem_lines level hbreak⟩ }

/-! ## Comments of members -/

theorem render_eq_empty_iff (level : Nat) (text : String) :
    render level text = "" ↔ text = "" := by
  constructor
  · intro hempty
    by_contra h
    obtain ⟨before, hclosing⟩ := (isSealed_render level h).closing
    rw [hempty] at hclosing
    exact absurd (congrArg String.toList hclosing) (by simp)
  · rintro rfl
    rfl

theorem getD_eq_empty_iff (text : Option String) :
    text.getD "" = "" ↔ text = none ∨ text = some "" := by
  cases text <;> simp

/-- There is something to say about a member that has a description or is deprecated. -/
theorem memberText_eq_empty_iff (description : Option String) (directives : List Sdl.Directive) :
    memberText description directives = "" ↔
      (description = none ∨ description = some "") ∧ deprecation? directives = none := by
  rw [memberText, ← getD_eq_empty_iff]
  cases deprecation? directives with
  | none => simp
  | some reason => simp [String.append_eq_empty_iff]

/-- No text is closed early as a comment: there is no comment for a text that is missing or empty,
and the comment of any other is sealed. Nor is the comment of a member, whatever its description
and the reason of its deprecation hold. -/
theorem isSealed_comments (level : Nat) :
    (∀ text : Option String,
      (render level (text.getD "") = "" ↔ text = none ∨ text = some "") ∧
      (render level (text.getD "") = "" ∨
        IsSealed level (text.getD "") (render level (text.getD "")))) ∧
    ∀ (description : Option String) (directives : List Sdl.Directive),
      (ofMember level description directives = "" ↔
        (description = none ∨ description = some "") ∧ deprecation? directives = none) ∧
      (ofMember level description directives = "" ∨
        IsSealed level (memberText description directives)
          (ofMember level description directives)) := by
  have hsealed (text : String) :
      render level text = "" ∨ IsSealed level text (render level text) := by
    rw [render_eq_empty_iff]
    exact (Classical.em _).imp_right (isSealed_render level)
  refine ⟨fun text => ⟨?_, hsealed _⟩, fun description directives => ⟨?_, hsealed _⟩⟩
  · rw [render_eq_empty_iff, getD_eq_empty_iff]
  · rw [ofMember, render_eq_empty_iff, memberText_eq_empty_iff]

end Comment

end SdlTypes
