import SdlTypes.Text.Basic

/-!
# Texts and their pieces

`Text.split` takes a text apart at a character and `Text.join` puts texts together. The pieces are
free of the character (`not_mem_of_mem_split`), and texts that are free of it can be had back
(`split_join`). The characters of joined texts are those of the texts with the separator's between
them (`toList_join`). `Text.cut?` cuts a text in two where a mark stands for the first time
(`cut?_append`), and what a text starts or ends with is asked by `Text.startsWith` and
`Text.endsWith`.
-/

namespace SdlTypes.Text

/-! ## Beginnings and ends -/

section

variable {c : Char} {mark s : String}

theorem startsWith_append (s t : String) : startsWith (s ++ t) s = true := by
  rw [startsWith, List.isPrefixOf_iff_prefix, String.toList_append]
  exact List.prefix_append _ _

theorem endsWith_append (s t : String) : endsWith (s ++ t) t = true := by
  rw [endsWith, List.isSuffixOf_iff_suffix, String.toList_append]
  exact List.suffix_append _ _

/-- A text does not start with a mark that has another character. -/
theorem startsWith_eq_false (hc : c ∈ mark.toList) (h : c ∉ s.toList) :
    startsWith s mark = false := by
  rw [startsWith, ← Bool.not_eq_true, List.isPrefixOf_iff_prefix]
  exact fun hstart => h (hstart.subset hc)

theorem endsWith_eq_false (hc : c ∈ mark.toList) (h : c ∉ s.toList) : endsWith s mark = false := by
  rw [endsWith, ← Bool.not_eq_true, List.isSuffixOf_iff_suffix]
  exact fun hend => h (hend.subset hc)

end

/-! ## Cutting at marks -/

/-- A text is cut behind a front without the first character of the mark as it is cut alone. -/
theorem cutChars?_append_left {c : Char} {mark s : List Char} (h : c ∉ s) (t : List Char) :
    cutChars? (c :: mark) (s ++ t) =
      (cutChars? (c :: mark) t).map fun (before, after) => (s ++ before, after) := by
  induction s with
  | nil => exact Option.map_id'.symm
  | cons x s ih =>
    have hx : c ≠ x := fun heq => h (heq ▸ List.mem_cons_self)
    have hnot : (c :: mark).isPrefixOf (x :: (s ++ t)) = false := by
      rw [List.isPrefixOf, beq_false_of_ne hx, Bool.false_and]
    rw [List.cons_append, cutChars?, hnot, ih fun hs => h (List.mem_cons_of_mem _ hs),
      if_neg Bool.false_ne_true, Option.map_map]
    rfl

theorem cutChars?_eq_none {mark : Char} {rest s : List Char} (h : mark ∉ s) :
    cutChars? (mark :: rest) s = none := by
  rw [← List.append_nil s, cutChars?_append_left h]
  rfl

/-- A text without the first character of a mark is cut behind itself. -/
theorem cutChars?_append {mark : Char} {rest s : List Char} (h : mark ∉ s) (t : List Char) :
    cutChars? (mark :: rest) (s ++ mark :: rest ++ t) = some (s, t) := by
  have hyes : (mark :: rest).isPrefixOf (mark :: (rest ++ t)) = true :=
    List.isPrefixOf_iff_prefix.2 (List.prefix_append (mark :: rest) t)
  rw [List.append_assoc, List.cons_append, cutChars?_append_left h, cutChars?, hyes]
  simp

/-- A text is cut behind a front without the last character of the mark, if this stands in the mark
once. -/
theorem cutChars?_append_of_last {q : Char} {m s : List Char} (h : q ∉ s ++ m) (t : List Char) :
    cutChars? (m ++ [q]) (s ++ (m ++ [q]) ++ t) = some (s, t) := by
  induction s with
  | nil =>
    have hyes : (m ++ [q]).isPrefixOf (m ++ [q] ++ t) = true :=
      List.isPrefixOf_iff_prefix.2 (List.prefix_append _ _)
    cases hm : m ++ [q] ++ t with
    | nil => simp at hm
    | cons x rest =>
      rw [hm] at hyes
      rw [List.nil_append, hm, cutChars?, hyes, if_pos rfl, ← hm, List.drop_left]
  | cons x s ih =>
    have hnot : ¬(m ++ [q]) <+: (x :: s) ++ (m ++ [q]) ++ t := by
      intro hstart
      have hfront : (x :: s) ++ m <+: (x :: s) ++ (m ++ [q]) ++ t := by
        rw [List.append_assoc, List.append_assoc]
        exact (List.prefix_append_right_inj _).2 (List.prefix_append _ _)
      have hwithin : (m ++ [q]) <+: (x :: s) ++ m :=
        List.prefix_of_prefix_length_le hstart hfront (by simp)
      exact h (hwithin.subset (List.mem_append_right _ (List.mem_singleton_self q)))
    have hfalse : (m ++ [q]).isPrefixOf (x :: (s ++ (m ++ [q]) ++ t)) = false := by
      rw [← Bool.not_eq_true, List.isPrefixOf_iff_prefix]
      exact hnot
    rw [List.cons_append, List.cons_append, cutChars?, hfalse, if_neg Bool.false_ne_true,
      ih fun hmem => h (List.mem_cons_of_mem _ hmem)]
    rfl

/-- What stands before a mark is part of the text. -/
theorem subset_of_cutChars? {mark s before after : List Char}
    (h : cutChars? mark s = some (before, after)) : before ⊆ s := by
  induction s generalizing before with
  | nil => cases h
  | cons x s ih =>
    rw [cutChars?] at h
    split at h
    · cases h
      exact List.nil_subset _
    · obtain ⟨⟨front, back⟩, hcut, heq⟩ := Option.map_eq_some_iff.1 h
      cases heq
      exact List.cons_subset_cons _ (ih hcut)

/-- A text without the first character of a mark is cut behind itself. -/
theorem cut?_append {mark s : String} {c : Char} (hmark : mark.toList.head? = some c)
    (h : c ∉ s.toList) (t : String) : cut? mark (s ++ mark ++ t) = some (s, t) := by
  obtain ⟨rest, hrest⟩ := List.head?_eq_some_iff.1 hmark
  rw [cut?, String.toList_append, String.toList_append, hrest, cutChars?_append h, Option.map_some]
  exact congrArg some (Prod.ext String.ofList_toList String.ofList_toList)

theorem cut?_eq_none {mark s : String} {c : Char} (hmark : mark.toList.head? = some c)
    (h : c ∉ s.toList) : cut? mark s = none := by
  obtain ⟨rest, hrest⟩ := List.head?_eq_some_iff.1 hmark
  rw [cut?, hrest, cutChars?_eq_none h, Option.map_none]

theorem cut?_append_of_last {mark s : String} {m : List Char} {q : Char}
    (hmark : mark.toList = m ++ [q]) (h : q ∉ s.toList ++ m) (t : String) :
    cut? mark (s ++ mark ++ t) = some (s, t) := by
  rw [cut?, String.toList_append, String.toList_append, hmark, cutChars?_append_of_last h,
    Option.map_some]
  exact congrArg some (Prod.ext String.ofList_toList String.ofList_toList)

/-! ## Splitting and joining -/

theorem toList_join_cons_cons (separator s t : String) (rest : List String) :
    (join separator (s :: t :: rest)).toList =
      s.toList ++ separator.toList ++ (join separator (t :: rest)).toList := by
  rw [join_cons_cons, String.toList_append, String.toList_append]

theorem join_append (separator : String) {ss ts : List String} (hs : ss ≠ []) (ht : ts ≠ []) :
    join separator (ss ++ ts) = join separator ss ++ separator ++ join separator ts := by
  induction ss with
  | nil => exact absurd rfl hs
  | cons s rest ih =>
    cases rest with
    | nil =>
      obtain ⟨t, ts, rfl⟩ := List.exists_cons_of_ne_nil ht
      exact join_cons_cons separator s t ts
    | cons u rest =>
      rw [List.cons_append, List.cons_append, join_cons_cons, ← List.cons_append,
        ih (List.cons_ne_nil _ _), join_cons_cons]
      simp only [String.append_assoc]

theorem join_cons_ne_empty {separator s : String} (h : s ≠ "") (rest : List String) :
    join separator (s :: rest) ≠ "" := by
  cases rest with
  | nil => exact h
  | cons t rest =>
    rw [join_cons_cons, String.append_assoc]
    exact fun heq => h (String.append_eq_empty_iff.1 heq).1

/-- A joined text is a part of the whole. -/
theorem isInfix_join (separator : String) {s : String} {pieces : List String} (h : s ∈ pieces) :
    s.toList <:+: (join separator pieces).toList := by
  induction pieces with
  | nil => cases h
  | cons t rest ih =>
    cases rest with
    | nil =>
      rw [List.mem_singleton.1 h]
      exact ⟨[], [], List.append_nil _⟩
    | cons u rest =>
      rw [toList_join_cons_cons]
      rcases List.mem_cons.1 h with rfl | h
      · rw [List.append_assoc]
        exact (List.prefix_append _ _).isInfix
      · exact (ih h).trans (List.suffix_append _ _).isInfix

/-- A separator is in none of the pieces. -/
theorem not_mem_of_mem_splitOn {c : Char} {chars piece : List Char}
    (h : piece ∈ chars.splitOn c) : c ∉ piece := by
  induction chars generalizing piece with
  | nil =>
    rw [List.splitOn_nil, List.mem_singleton] at h
    exact h ▸ List.not_mem_nil
  | cons d chars ih =>
    rw [List.splitOn_cons_eq_if_modifyHead] at h
    split at h
    case isTrue =>
      rcases List.mem_cons.1 h with rfl | h
      · exact List.not_mem_nil
      · exact ih h
    case isFalse hd =>
      obtain ⟨first, rest, heq⟩ := List.exists_cons_of_ne_nil (List.splitOn_ne_nil c chars)
      rw [heq, List.modifyHead_cons] at h
      rw [heq] at ih
      rcases List.mem_cons.1 h with rfl | h
      · exact List.not_mem_cons_of_ne_of_not_mem (fun hcd => hd (by simp [hcd]))
          (ih List.mem_cons_self)
      · exact ih (List.mem_cons_of_mem _ h)

theorem not_mem_of_mem_split {c : Char} {s piece : String} (h : piece ∈ split c s) :
    c ∉ piece.toList := by
  obtain ⟨l, hl, rfl⟩ := List.mem_map.1 h
  rw [String.toList_ofList]
  exact not_mem_of_mem_splitOn hl

/-- Texts without a separator are the pieces of the text that joins them with it. -/
theorem split_join {c : Char} {separator : String} (hc : separator.toList = [c])
    {pieces : List String} (hne : pieces ≠ []) (h : ∀ piece ∈ pieces, c ∉ piece.toList) :
    split c (join separator pieces) = pieces := by
  induction pieces with
  | nil => exact absurd rfl hne
  | cons s rest ih =>
    obtain ⟨hs, hrest⟩ := List.forall_mem_cons.1 h
    cases rest with
    | nil =>
      rw [join_singleton, split, List.splitOn_eq_singleton hs, List.map_singleton,
        String.ofList_toList]
    | cons t rest =>
      rw [split, toList_join_cons_cons, hc, List.append_assoc, List.singleton_append,
        List.splitOn_append_cons_self_of_not_mem hs, List.map_cons,
        String.ofList_toList]
      exact congrArg (s :: ·) (ih (List.cons_ne_nil t rest) hrest)

/-- A character that is in no piece and not in the separator is not in the whole. -/
theorem not_mem_join {c : Char} {separator : String} (hseparator : c ∉ separator.toList)
    {pieces : List String} (h : ∀ piece ∈ pieces, c ∉ piece.toList) :
    c ∉ (join separator pieces).toList := by
  induction pieces with
  | nil => exact List.not_mem_nil
  | cons s rest ih =>
    rw [List.forall_mem_cons] at h
    cases rest with
    | nil => exact h.1
    | cons t rest =>
      rw [toList_join_cons_cons, List.mem_append, List.mem_append, not_or, not_or]
      exact ⟨⟨h.1, hseparator⟩, ih h.2⟩

theorem toList_join (separator : String) (pieces : List String) :
    (join separator pieces).toList = separator.toList.intercalate (pieces.map String.toList) := by
  induction pieces with
  | nil => rfl
  | cons s rest ih =>
    cases rest with
    | nil => simp
    | cons t rest =>
      rw [toList_join_cons_cons, ih]
      simp only [List.map_cons, List.intercalate_cons_cons]

theorem nil_intercalate (pieces : List (List Char)) :
    List.intercalate [] pieces = pieces.flatten := by
  induction pieces with
  | nil => rfl
  | cons piece rest ih =>
    cases rest with
    | nil => simp
    | cons next rest =>
      rw [List.intercalate_cons_cons, ih, List.append_nil, List.flatten_cons (l := piece)]

theorem map_intercalate (f : Char → Char) (separator : List Char) (pieces : List (List Char)) :
    (separator.intercalate pieces).map f = (separator.map f).intercalate (pieces.map (·.map f)) := by
  induction pieces with
  | nil => rfl
  | cons piece rest ih =>
    cases rest with
    | nil => simp
    | cons next rest =>
      rw [List.intercalate_cons_cons, List.map_append, List.map_append, ih]
      simp only [List.map_cons, List.intercalate_cons_cons]

/-- Joined texts end in the last one. -/
theorem suffix_join {separator : String} {pieces : List String} (hne : pieces ≠ []) :
    (pieces.getLast hne).toList <:+ (join separator pieces).toList := by
  induction pieces with
  | nil => exact absurd rfl hne
  | cons s rest ih =>
    cases rest with
    | nil => exact List.suffix_rfl
    | cons t rest =>
      rw [toList_join_cons_cons, List.getLast_cons (List.cons_ne_nil t rest)]
      exact (ih (List.cons_ne_nil t rest)).trans (List.suffix_append ..)

end SdlTypes.Text
