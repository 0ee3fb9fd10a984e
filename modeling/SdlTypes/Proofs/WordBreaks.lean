import Mathlib
import SdlTypes.Proofs.NameCharacters

/-!
# Where words begin

`snakeCase` goes through a name twice, and each pass uses up what it has matched, so neither of
them finds all words. Together they do: `beginsWord` decides from a character, the one before it
and the one behind it whether a word begins, `pieces` cuts a name in front of all words that begin
within it, and `breakBeforeCapitals_breakBeforeWords` says that the passes put an underscore
between each two pieces. A capital that the first pass has stepped over stands behind a small
letter, where the second pass looks for it.

So nothing is lost or moved in a name, and underscores are added between characters only
(`snakeCase_adds_underscores`).
-/

namespace SdlTypes

/-! ## Capitals and small letters -/

namespace Naming

open Sdl.Token

/-- Small letters and digits. -/
def isSmall (c : Char) : Bool :=
  c.isLower || c.isDigit

variable {c : Char}

theorem isSmall_of_isLower (h : c.isLower = true) : isSmall c = true := by
  rw [isSmall, h, Bool.true_or]

theorem toNat_lt_of_isSmall (h : isSmall c = true) : c.toNat < 128 := by
  refine Text.toNat_lt_of_isNamePart ?_
  rw [isSmall, Bool.or_eq_true] at h
  rcases h with h | h <;> simp [isNamePart, Char.isAlphanum, Char.isAlpha, h]

theorem toNat_lt_of_isUpper (h : c.isUpper = true) : c.toNat < 128 :=
  Text.toNat_lt_of_isNamePart (by simp [isNamePart, Char.isAlphanum, Char.isAlpha, h])

theorem isUpper_of_isSmall (h : isSmall c = true) : c.isUpper = false :=
  Text.forall_ascii (p := fun c => isSmall c = true → c.isUpper = false) (by decide)
    (toNat_lt_of_isSmall h) h

theorem isSmall_of_isUpper (h : c.isUpper = true) : isSmall c = false := by
  rw [← Bool.not_eq_true]
  intro hsmall
  rw [isUpper_of_isSmall hsmall] at h
  cases h

theorem isLower_toLower_of_isUpper (h : c.isUpper = true) : c.toLower.isLower = true := by
  rw [Char.isLower_toLower_eq_isAlpha, Char.isAlpha, h, Bool.true_or]

theorem toLower_eq_underscore_iff : c.toLower = '_' ↔ c = '_' := by
  by_cases h : c.isUpper
  · have hlower := isLower_toLower_of_isUpper h
    refine iff_of_false ?_ ?_
    · intro heq
      rw [heq] at hlower
      exact absurd hlower (by decide)
    · rintro rfl
      exact absurd h (by decide)
  · rw [Char.toLower_eq_of_not_isUpper h]

theorem map_toLower_of_not_isUpper {s : List Char} (h : ∀ c ∈ s, c.isUpper = false) :
    s.map Char.toLower = s := by
  refine (List.map_congr_left fun c hc => ?_).trans (List.map_id s)
  exact Char.toLower_eq_of_not_isUpper (by simp [h c hc])

end Naming

namespace Text

open Naming

/-- Characters of which the lower case is that of ASCII: those of ASCII, and those that are in
lower case already or have no case. -/
def LowersInAscii (s : List Char) : Prop :=
  ∀ c ∈ s, lowerChars [] [c] = [c.toLower]

theorem lowerChars_singleton {c : Char} (h : c.toNat < 128) : lowerChars [] [c] = [c.toLower] := by
  have hsigma : c.toNat ≠ 0x3A3 := by omega
  rw [lowerChars, if_neg hsigma, lowerChar, if_pos h, lowerChars]
  rfl

theorem lowersInAscii_of_ascii {s : List Char} (h : ∀ c ∈ s, c.toNat < 128) :
    LowersInAscii s :=
  fun c hc => lowerChars_singleton (h c hc)

/-- These characters are lowered one by one, whatever stands around them. -/
theorem lowerChars_eq_map {s : List Char} (h : LowersInAscii s) (before : List Char) :
    lowerChars before s = s.map Char.toLower := by
  induction s generalizing before with
  | nil => rfl
  | cons c s ih =>
    obtain ⟨hc, hs⟩ := List.forall_mem_cons.1 h
    have hsigma : c.toNat ≠ 0x3A3 := by
      intro hsigma
      rw [← Char.ofNat_toNat c, hsigma] at hc
      exact absurd hc (by decide)
    rw [lowerChars, if_neg hsigma, lowerChars, List.append_nil] at hc
    rw [lowerChars, if_neg hsigma, hc, ih hs, List.map_cons, List.singleton_append]

theorem toList_lower {s : String} (h : LowersInAscii s.toList) :
    (lower s).toList = s.toList.map Char.toLower := by
  rw [lower, String.toList_ofList, lowerChars_eq_map h]

theorem LowersInAscii.map_toLower {s : List Char} (h : LowersInAscii s) :
    LowersInAscii (s.map Char.toLower) := by
  refine List.forall_mem_map.2 fun c hc => ?_
  by_cases hupper : c.isUpper
  · have hlower := isLower_toLower_of_isUpper hupper
    rw [lowerChars_singleton (toNat_lt_of_isSmall (isSmall_of_isLower hlower))]
  · rw [Char.toLower_eq_of_not_isUpper hupper]
    exact h c hc

end Text

namespace Naming

/-! ## Pieces -/

/-- Whether a word begins with `u`, which stands between `c` and `rest`: it is a capital, and it
stands behind a small letter or digit, or in front of a small letter and behind anything but a line
feed. -/
def beginsWord (c u : Char) (rest : List Char) : Bool :=
  u.isUpper && (isSmall c || (c ≠ '\n' && rest.head?.any Char.isLower))

/-- A name cut in front of each word that begins within it. -/
def pieces : List Char → List (List Char)
  | [] => []
  | [c] => [[c]]
  | c :: u :: rest =>
    if beginsWord c u rest then [c] :: pieces (u :: rest)
    else (pieces (u :: rest)).modifyHead (c :: ·)

/-- The pieces of a name with underscores between them. -/
def spaced (s : List Char) : List Char :=
  ['_'].intercalate (pieces s)

section

variable {c u : Char} {rest : List Char}

theorem pieces_of_beginsWord (h : beginsWord c u rest = true) :
    pieces (c :: u :: rest) = [c] :: pieces (u :: rest) := by
  rw [pieces, if_pos h]

theorem pieces_of_not_beginsWord (h : beginsWord c u rest = false) :
    pieces (c :: u :: rest) = (pieces (u :: rest)).modifyHead (c :: ·) := by
  rw [pieces, h, if_neg Bool.false_ne_true]

/-- The first piece begins like the name. -/
theorem exists_pieces_cons (c : Char) (s : List Char) :
    ∃ piece later, pieces (c :: s) = (c :: piece) :: later := by
  induction s generalizing c with
  | nil => exact ⟨[], [], rfl⟩
  | cons u s ih =>
    obtain ⟨piece, later, heq⟩ := ih u
    cases hword : beginsWord c u s with
    | true => exact ⟨[], _, pieces_of_beginsWord hword⟩
    | false =>
      refine ⟨u :: piece, later, ?_⟩
      rw [pieces_of_not_beginsWord hword, heq, List.modifyHead_cons]

theorem spaced_of_beginsWord (h : beginsWord c u rest = true) :
    spaced (c :: u :: rest) = c :: '_' :: spaced (u :: rest) := by
  obtain ⟨piece, later, heq⟩ := exists_pieces_cons u rest
  rw [spaced, spaced, pieces_of_beginsWord h, heq, List.intercalate_cons_cons]
  rfl

theorem spaced_of_not_beginsWord (h : beginsWord c u rest = false) :
    spaced (c :: u :: rest) = c :: spaced (u :: rest) := by
  obtain ⟨piece, later, heq⟩ := exists_pieces_cons u rest
  rw [spaced, spaced, pieces_of_not_beginsWord h, heq, List.modifyHead_cons]
  cases later with
  | nil => rfl
  | cons next later =>
    rw [List.intercalate_cons_cons, List.intercalate_cons_cons]
    rfl

end

/-- Where no capital stands behind the first character, no word begins. -/
theorem pieces_of_not_isUpper {c : Char} {s : List Char} (h : ∀ u ∈ s, u.isUpper = false) :
    pieces (c :: s) = [c :: s] := by
  induction s generalizing c with
  | nil => rfl
  | cons u s ih =>
    obtain ⟨hu, hs⟩ := List.forall_mem_cons.1 h
    have hword : beginsWord c u s = false := by rw [beginsWord, hu, Bool.false_and]
    rw [pieces_of_not_beginsWord hword, ih hs, List.modifyHead_cons]

theorem spaced_of_not_isUpper {s : List Char} (h : ∀ u ∈ s, u.isUpper = false) : spaced s = s := by
  cases s with
  | nil => rfl
  | cons c s =>
    rw [spaced, pieces_of_not_isUpper (List.forall_mem_cons.1 h).2, List.intercalate_singleton]

/-! ## The two passes -/

/-- The second pass looks at two neighbours only. -/
theorem breakBeforeCapitals_cons_cons (a b : Char) (rest : List Char) :
    breakBeforeCapitals (a :: b :: rest) =
      (if isSmall a && b.isUpper then [a, '_'] else [a]) ++ breakBeforeCapitals (b :: rest) := by
  rw [breakBeforeCapitals, ← isSmall]
  split_ifs with h
  · -- the capital is used up, but no word could begin behind it
    have hsmall : isSmall b = false := isSmall_of_isUpper (Bool.and_eq_true_iff.1 h).2
    have hb : breakBeforeCapitals (b :: rest) = b :: breakBeforeCapitals rest := by
      cases rest with
      | nil => rfl
      | cons d rest =>
        rw [breakBeforeCapitals, ← isSmall, hsmall, Bool.false_and]
        rfl
    rw [hb]
    rfl
  · rfl

/-- Nothing is added around an underscore. -/
theorem breakBeforeCapitals_cons_underscore (c : Char) (s : List Char) :
    breakBeforeCapitals (c :: '_' :: s) = c :: '_' :: breakBeforeCapitals s := by
  have hcapital : Char.isUpper '_' = false := rfl
  have hsmall : isSmall '_' = false := rfl
  rw [breakBeforeCapitals_cons_cons, hcapital, Bool.and_false]
  cases s with
  | nil => rfl
  | cons d s =>
    rw [breakBeforeCapitals_cons_cons, hsmall, Bool.false_and]
    rfl

/-- If the passes have put in all underscores of a name, the second pass does so for the name with
one more character in front, behind which a word begins just if the character is small. -/
theorem breakBeforeCapitals_cons {t s : List Char} (hhead : t.head? = s.head?)
    (h : breakBeforeCapitals t = spaced s) {c : Char}
    (hword : ∀ u rest, s = u :: rest → beginsWord c u rest = (isSmall c && u.isUpper)) :
    breakBeforeCapitals (c :: t) = spaced (c :: s) := by
  cases s with
  | nil =>
    rw [List.head?_nil, List.head?_eq_none_iff] at hhead
    rw [hhead]
    rfl
  | cons u s =>
    obtain ⟨t, rfl⟩ : ∃ rest, t = u :: rest := List.head?_eq_some_iff.1 hhead
    have hword := hword u s rfl
    rw [breakBeforeCapitals_cons_cons, h]
    cases hbreak : isSmall c && u.isUpper with
    | true =>
      rw [spaced_of_beginsWord (hword.trans hbreak)]
      rfl
    | false =>
      rw [spaced_of_not_beginsWord (hword.trans hbreak)]
      rfl

theorem beginsWord_of_isSmall {c : Char} (h : isSmall c = true) (u : Char) (rest : List Char) :
    beginsWord c u rest = (isSmall c && u.isUpper) := by
  rw [beginsWord, h, Bool.true_or, Bool.and_true, Bool.true_and]

theorem head?_breakBeforeWords (s : List Char) : (breakBeforeWords s).head? = s.head? := by
  unfold breakBeforeWords
  split
  · split_ifs <;> rfl
  · rfl

/-- Small letters that the first pass has used up are followed by an underscore where a word begins
behind them. -/
theorem breakBeforeCapitals_append {letters s : List Char}
    (hletters : ∀ c ∈ letters, c.isLower = true)
    (h : breakBeforeCapitals (breakBeforeWords s) = spaced s) :
    breakBeforeCapitals (letters ++ breakBeforeWords s) = spaced (letters ++ s) := by
  induction letters with
  | nil => exact h
  | cons c letters ih =>
    obtain ⟨hc, hletters⟩ := List.forall_mem_cons.1 hletters
    have hhead : (letters ++ breakBeforeWords s).head? = (letters ++ s).head? := by
      rw [List.head?_append, List.head?_append, head?_breakBeforeWords]
    exact breakBeforeCapitals_cons hhead (ih hletters) fun u rest _ =>
      beginsWord_of_isSmall (isSmall_of_isLower hc) u rest

/-- The two passes together put underscores between the pieces of a name. -/
theorem breakBeforeCapitals_breakBeforeWords (s : List Char) :
    breakBeforeCapitals (breakBeforeWords s) = spaced s := by
  -- the cases are those of the first pass: a word found, none found, and too few characters left
  fun_induction breakBeforeWords s with
  | case1 c u l rest hbreak ih =>
    obtain ⟨hfeed, hu, hl⟩ := hbreak
    have hletters : ∀ d ∈ l :: rest.takeWhile Char.isLower, d.isLower = true :=
      List.forall_mem_cons.2 ⟨hl, fun d hd => List.mem_takeWhile_imp hd⟩
    have hrest : l :: rest.takeWhile Char.isLower ++ rest.dropWhile Char.isLower = l :: rest := by
      rw [List.cons_append, List.takeWhile_append_dropWhile]
    have hbehind := breakBeforeCapitals_append hletters ih
    rw [hrest] at hbehind
    have hhead : (l :: rest.takeWhile Char.isLower ++
        breakBeforeWords (rest.dropWhile Char.isLower)).head? = (l :: rest).head? := rfl
    have hword := breakBeforeCapitals_cons (c := u) hhead hbehind fun d later heq => by
      obtain ⟨rfl, rfl⟩ := List.cons.inj heq
      have hd := isUpper_of_isSmall (isSmall_of_isLower hl)
      rw [beginsWord, hd, Bool.false_and, Bool.and_false]
    have hbegins : beginsWord c u (l :: rest) = true := by
      simp [beginsWord, hfeed, hu, hl]
    rw [spaced_of_beginsWord hbegins, ← hword]
    exact breakBeforeCapitals_cons_underscore c _
  | case2 c u l rest hbreak ih =>
    refine breakBeforeCapitals_cons (head?_breakBeforeWords _) ih fun d later heq => ?_
    obtain ⟨rfl, rfl⟩ := List.cons.inj heq
    grind [beginsWord]
  | case3 short hshort =>
    rcases short with _ | ⟨c, _ | ⟨u, _ | ⟨l, rest⟩⟩⟩
    · rfl
    · rfl
    · refine breakBeforeCapitals_cons (s := [u]) rfl rfl fun d later heq => ?_
      obtain ⟨rfl, rfl⟩ := List.cons.inj heq
      simp [beginsWord, Bool.and_comm]
    · exact absurd rfl (hshort c u l rest)

theorem mem_spaced {s : List Char} {c : Char} (h : c ∈ spaced s) : c ∈ s ∨ c = '_' := by
  rw [← breakBeforeCapitals_breakBeforeWords] at h
  rcases mem_breakBeforeCapitals h with h | h
  · exact mem_breakBeforeWords h
  · exact .inr h

theorem lowersInAscii_spaced {s : List Char} (h : Text.LowersInAscii s) :
    Text.LowersInAscii (spaced s) := by
  intro c hc
  rcases mem_spaced hc with hc | rfl
  · exact h c hc
  · exact Text.lowerChars_singleton (by decide)

theorem toList_snakeCase {s : String} (h : Text.LowersInAscii s.toList) :
    (snakeCase s).toList = (spaced s.toList).map Char.toLower := by
  have hspaced := lowersInAscii_spaced h
  rw [← String.toList_ofList (l := spaced s.toList)] at hspaced
  rw [snakeCase, breakBeforeCapitals_breakBeforeWords, Text.toList_lower hspaced,
    String.toList_ofList]

/-- A converted name is not changed again. -/
theorem snakeCase_snakeCase {s : String} (h : Text.LowersInAscii s.toList) :
    snakeCase (snakeCase s) = snakeCase s := by
  have hlowers : Text.LowersInAscii (snakeCase s).toList := by
    rw [toList_snakeCase h]
    exact (lowersInAscii_spaced h).map_toLower
  have hcapitals : ∀ c ∈ (snakeCase s).toList, c.isUpper = false := by
    rw [toList_snakeCase h, List.forall_mem_map]
    exact fun c _ => Char.isUpper_toLower_eq_false c
  refine String.toList_injective ?_
  rw [toList_snakeCase hlowers, spaced_of_not_isUpper hcapitals,
    map_toLower_of_not_isUpper hcapitals]

/-! ## What is added to a name -/

/-- Parts that make up a name, of which all but the first begin with a capital and none has a
capital behind a small letter or digit. -/
structure IsBreakup (name : String) (parts : List String) : Prop where
  whole : Text.join "" parts = name
  nonempty : ∀ part ∈ parts, part ≠ ""
  capital : ∀ part ∈ parts.tail, ∃ c rest, part.toList = c :: rest ∧ c.isUpper = true
  unbroken : ∀ part ∈ parts,
    part.toList.IsChain fun a b => ¬(isSmall a = true ∧ b.isUpper = true)

/-- Putting underscores at some places between two characters of `s` gives `t`. -/
def AddsUnderscores (s t : String) : Prop :=
  ∃ parts : List String, (∀ part ∈ parts, part ≠ "") ∧ Text.join "" parts = s ∧
    Text.join "_" parts = t

/-- A text with its underscores deleted. -/
def withoutUnderscores (s : String) : String :=
  String.ofList (s.toList.filter (· ≠ '_'))

theorem flatten_pieces (s : List Char) : (pieces s).flatten = s := by
  fun_induction pieces s with
  | case1 => rfl
  | case2 c => rfl
  | case3 c u rest hword ih => rw [List.flatten_cons, ih, List.singleton_append]
  | case4 c u rest hword ih =>
    obtain ⟨piece, later, heq⟩ := exists_pieces_cons u rest
    rw [heq] at ih ⊢
    rw [List.modifyHead_cons, List.flatten_cons, List.cons_append, ← List.flatten_cons, ih]

/-- A piece is one character, or one in front of a piece with which no word begins. -/
theorem forall_mem_pieces {P : List Char → Prop} (hsingle : ∀ c, P [c])
    (hcons : ∀ c u piece, ¬(isSmall c = true ∧ u.isUpper = true) → P (u :: piece) →
      P (c :: u :: piece)) (s : List Char) : ∀ piece ∈ pieces s, P piece := by
  fun_induction pieces s with
  | case1 => exact List.forall_mem_nil _
  | case2 c => exact List.forall_mem_singleton.2 (hsingle c)
  | case3 c u rest hword ih => exact List.forall_mem_cons.2 ⟨hsingle c, ih⟩
  | case4 c u rest hword ih =>
    obtain ⟨piece, later, heq⟩ := exists_pieces_cons u rest
    rw [heq, List.forall_mem_cons] at ih
    rw [heq, List.modifyHead_cons, List.forall_mem_cons]
    refine ⟨hcons c u piece ?_ ih.1, ih.2⟩
    rintro ⟨hsmall, hupper⟩
    exact hword (by rw [beginsWord, hsmall, hupper]; rfl)

theorem isUpper_of_mem_tail_pieces {s piece : List Char} (h : piece ∈ (pieces s).tail) :
    ∃ c rest, piece = c :: rest ∧ c.isUpper = true := by
  fun_induction pieces s with
  | case1 => cases h
  | case2 c => cases h
  | case3 c u rest hword ih =>
    obtain ⟨first, later, heq⟩ := exists_pieces_cons u rest
    rw [List.tail_cons, heq] at h
    rw [heq, List.tail_cons] at ih
    rcases List.mem_cons.1 h with rfl | h
    · exact ⟨u, first, rfl, (Bool.and_eq_true_iff.1 hword).1⟩
    · exact ih h
  | case4 c u rest hword ih =>
    rw [List.tail_modifyHead] at h
    exact ih h

theorem isBreakup_pieces (name : String) :
    IsBreakup name ((pieces name.toList).map String.ofList) where
  whole := by
    refine String.toList_injective ?_
    rw [Text.toList_join, List.map_map]
    simp [Function.comp_def, Text.nil_intercalate, flatten_pieces]
  nonempty := by
    rw [List.forall_mem_map]
    exact forall_mem_pieces (by simp) (by simp) _
  capital := by
    rw [← List.map_tail, List.forall_mem_map]
    intro piece hpiece
    rw [String.toList_ofList]
    exact isUpper_of_mem_tail_pieces hpiece
  unbroken := by
    rw [List.forall_mem_map]
    simp only [String.toList_ofList]
    exact forall_mem_pieces .singleton (fun c u piece hword hpiece => .cons_cons hword hpiece) _

/-- Apart from underscores nothing is added to a name. -/
theorem filter_spaced (s : List Char) : (spaced s).filter (· ≠ '_') = s.filter (· ≠ '_') := by
  have hcons {c : Char} {t t' : List Char} (h : t.filter (· ≠ '_') = t'.filter (· ≠ '_')) :
      (c :: t).filter (· ≠ '_') = (c :: t').filter (· ≠ '_') := by
    rw [List.filter_cons, List.filter_cons, h]
  induction s with
  | nil => rfl
  | cons c s ih =>
    cases s with
    | nil => rfl
    | cons u rest =>
      cases hword : beginsWord c u rest with
      | true =>
        rw [spaced_of_beginsWord hword]
        exact hcons ((List.filter_cons_of_neg (by simp)).trans ih)
      | false =>
        rw [spaced_of_not_beginsWord hword]
        exact hcons ih

theorem filter_map_toLower (s : List Char) :
    (s.map Char.toLower).filter (· ≠ '_') = (s.filter (· ≠ '_')).map Char.toLower := by
  have hsame : (fun c : Char => decide (c ≠ '_')) ∘ Char.toLower = fun c => decide (c ≠ '_') := by
    funext c
    simp [toLower_eq_underscore_iff]
  rw [List.filter_map, hsame]

/-- In lower case, underscores and nothing else are added to an ASCII name. They stand between two
characters of it, and where a capital follows a small letter or digit there is one. What has been
converted is not changed again, and so the other conventions do not tell it from the name. -/
theorem snakeCase_adds_underscores {s : String} (h : ∀ c ∈ s.toList, c.toNat < 128) :
    withoutUnderscores (snakeCase s) = withoutUnderscores (Text.lower s) ∧
    AddsUnderscores (Text.lower s) (snakeCase s) ∧
    (∃ parts, IsBreakup s parts ∧ snakeCase s = Text.lower (Text.join "_" parts)) ∧
    snakeCase (snakeCase s) = snakeCase s ∧
    pascalCase (snakeCase s) = pascalCase s ∧
    camelCase (snakeCase s) = camelCase s ∧
    constantCase (snakeCase s) = constantCase s := by
  have hlowers : Text.LowersInAscii s.toList := Text.lowersInAscii_of_ascii h
  have hsnake := toList_snakeCase hlowers
  have hagain := snakeCase_snakeCase hlowers
  have hpascal : pascalCase (snakeCase s) = pascalCase s := by
    rw [pascalCase, hagain, ← pascalCase]
  refine ⟨?_, ?_, ⟨_, isBreakup_pieces s, ?_⟩, hagain, hpascal, ?_, ?_⟩
  · rw [withoutUnderscores, withoutUnderscores, hsnake, Text.toList_lower hlowers,
      filter_map_toLower, filter_map_toLower, filter_spaced]
  · refine ⟨(pieces s.toList).map fun piece => String.ofList (piece.map Char.toLower), ?_, ?_, ?_⟩
    · rw [List.forall_mem_map]
      exact forall_mem_pieces (by simp) (by simp) _
    · refine String.toList_injective ?_
      rw [Text.toList_join, Text.toList_lower hlowers, List.map_map]
      simp [Function.comp_def, Text.nil_intercalate, ← List.map_flatten, flatten_pieces]
    · refine String.toList_injective ?_
      rw [Text.toList_join, hsnake, List.map_map, spaced, Text.map_intercalate]
      simp [Function.comp_def]
  · rw [snakeCase, breakBeforeCapitals_breakBeforeWords]
    refine congrArg Text.lower (String.toList_injective ?_)
    rw [Text.toList_join, List.map_map, String.toList_ofList, spaced]
    simp [Function.comp_def]
  · rw [camelCase, hpascal, ← camelCase]
  · rw [constantCase, hagain, ← constantCase]

theorem snakeCase_adds_underscores_response :
    (∀ c ∈ "_HTTPResponse2Go".toList, c.toNat < 128) ∧
    snakeCase "_HTTPResponse2Go" = "_http_response2_go" ∧
    withoutUnderscores "_http_response2_go" = "httpresponse2go" ∧
    AddsUnderscores "_httpresponse2go" "_http_response2_go" ∧
    snakeCase "_http_response2_go" = "_http_response2_go" ∧
    pascalCase "_http_response2_go" = pascalCase "_HTTPResponse2Go" := by
  have hascii : ∀ c ∈ "_HTTPResponse2Go".toList, c.toNat < 128 := by decide
  have hsnake : snakeCase "_HTTPResponse2Go" = "_http_response2_go" := by decide +kernel
  have hlower : Text.lower "_HTTPResponse2Go" = "_httpresponse2go" := by decide +kernel
  obtain ⟨hdeleted, hadds, -, hagain, hpascal, -⟩ := snakeCase_adds_underscores hascii
  rw [hsnake, hlower] at hadds
  rw [hsnake] at hagain hpascal hdeleted
  refine ⟨hascii, hsnake, ?_, hadds, hagain, hpascal⟩
  rw [hdeleted, hlower]
  decide

end Naming

end SdlTypes
