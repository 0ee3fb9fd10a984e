import SdlTypes.Proofs.WordBreaks

/-!
# Spellings of a list of words

A list of words in small letters can be spelled in three ways: with underscores between the words
(`Naming.snakeSpelling`), with each word capitalised (`Naming.pascalSpelling`), and so but for the
first word (`Naming.camelSpelling`). The naming conventions find the words in each of them, and
turn any of the spellings into any other (`Naming.spellings_agree`).

The words have to begin with two small letters: the second one is what tells the capital of a word
from one in a row of capitals.
-/

namespace SdlTypes

namespace Naming

/-! ## The first character -/

/-- A text with its first character changed. -/
def changeFirst (f : Char → Char) (s : String) : String :=
  String.ofList (s.toList.modifyHead f)

theorem toList_changeFirst (f : Char → Char) (s : String) :
    (changeFirst f s).toList = s.toList.modifyHead f :=
  String.toList_ofList

theorem capitalise_eq {word : List Char} (h : ∀ c ∈ word.head?, c.toNat < 128) :
    capitalise word = word.modifyHead Char.toUpper := by
  cases word with
  | nil => rfl
  | cons c rest =>
    rw [capitalise, Text.upperChar, if_pos (h c rfl)]
    rfl

theorem camelCase_eq {s : String} (h : ∀ c ∈ (pascalCase s).toList.head?, c.toNat < 128) :
    camelCase s = changeFirst Char.toLower (pascalCase s) := by
  rw [camelCase, changeFirst]
  cases heq : (pascalCase s).toList with
  | nil => rfl
  | cons c rest =>
    have hc : c.toNat < 128 := h c (by rw [heq]; rfl)
    dsimp only
    rw [Text.lowerChars_singleton hc]
    rfl

/-! ## Words -/

/-- Small letters and digits, and of the characters outside ASCII those that are their own lower
case. -/
def isWordPart (c : Char) : Bool :=
  isSmall c || (128 ≤ c.toNat && Text.lowerChars [] [c] = [c])

/-- A word in small letters: two letters of ASCII, and then letters and digits. -/
def IsSmallWord (w : String) : Prop :=
  ∃ a b rest, w.toList = a :: b :: rest ∧ a.isLower = true ∧ b.isLower = true ∧
    ∀ c ∈ rest, isWordPart c = true

/-- A word that may begin with a capital. -/
def IsSpelledWord (p : List Char) : Prop :=
  ∃ a b rest, p = a :: b :: rest ∧ a.isAlpha = true ∧ b.isLower = true ∧
    ∀ c ∈ rest, isWordPart c = true

section

variable {c : Char}

theorem isWordPart_of_isLower (h : c.isLower = true) : isWordPart c = true := by
  rw [isWordPart, isSmall_of_isLower h, Bool.true_or]

theorem isUpper_of_isWordPart (h : isWordPart c = true) : c.isUpper = false := by
  rw [isWordPart, Bool.or_eq_true, Bool.and_eq_true, decide_eq_true_eq] at h
  rcases h with h | ⟨h, -⟩
  · exact isUpper_of_isSmall h
  · rw [← Bool.not_eq_true]
    intro hupper
    have := toNat_lt_of_isUpper hupper
    omega

theorem lowerChars_of_isWordPart (h : isWordPart c = true) :
    Text.lowerChars [] [c] = [c.toLower] := by
  have hupper : ¬c.isUpper := by simp [isUpper_of_isWordPart h]
  rw [isWordPart, Bool.or_eq_true, Bool.and_eq_true, decide_eq_true_eq] at h
  rcases h with hsmall | ⟨-, h⟩
  · exact Text.lowerChars_singleton (toNat_lt_of_isSmall hsmall)
  · rw [Char.toLower_eq_of_not_isUpper hupper]
    exact of_decide_eq_true h

theorem toUpper_of_isLower (h : c.isLower = true) :
    c.toUpper.isUpper = true ∧ c.toUpper.toLower = c := by
  rw [Char.isUpper_toUpper_eq_isAlpha, Char.isAlpha, h, Bool.or_true,
    Char.toLower_toUpper_eq_toLower]
  exact ⟨rfl, Char.toLower_eq_of_not_isUpper (Char.not_isUpper_of_isLower h)⟩

end

theorem map_toLower_of_isWordPart {s : List Char} (h : ∀ c ∈ s, isWordPart c = true) :
    s.map Char.toLower = s :=
  map_toLower_of_not_isUpper fun c hc => isUpper_of_isWordPart (h c hc)

namespace IsSpelledWord

variable {p : List Char}

theorem exists_cons (h : IsSpelledWord p) :
    ∃ a letters, p = a :: letters ∧ a.isAlpha = true ∧ ∀ c ∈ letters, isWordPart c = true := by
  obtain ⟨a, b, rest, rfl, ha, hb, hrest⟩ := h
  exact ⟨a, b :: rest, rfl, ha, List.forall_mem_cons.2 ⟨isWordPart_of_isLower hb, hrest⟩⟩

theorem lowersInAscii (h : IsSpelledWord p) : Text.LowersInAscii p := by
  obtain ⟨a, letters, rfl, ha, hletters⟩ := h.exists_cons
  have hlt : a.toNat < 128 :=
    Text.toNat_lt_of_isNamePart (by simp [Sdl.Token.isNamePart, Char.isAlphanum, ha])
  exact List.forall_mem_cons.2
    ⟨Text.lowerChars_singleton hlt, fun c hc => lowerChars_of_isWordPart (hletters c hc)⟩

theorem newline_notMem (h : IsSpelledWord p) : '\n' ∉ p := by
  obtain ⟨a, letters, rfl, ha, hletters⟩ := h.exists_cons
  rw [List.mem_cons, not_or]
  constructor
  · rintro rfl
    exact absurd ha (by decide)
  · exact fun hmem => absurd (hletters _ hmem) (by decide)

end IsSpelledWord

namespace IsSmallWord

variable {w : String}

theorem isWordPart (h : IsSmallWord w) : ∀ c ∈ w.toList, isWordPart c = true := by
  obtain ⟨a, b, rest, heq, ha, hb, hrest⟩ := h
  rw [heq, List.forall_mem_cons, List.forall_mem_cons]
  exact ⟨isWordPart_of_isLower ha, isWordPart_of_isLower hb, hrest⟩

theorem toNat_head (h : IsSmallWord w) : ∀ c ∈ w.toList.head?, c.toNat < 128 := by
  obtain ⟨a, b, rest, heq, ha, -⟩ := h
  rw [heq]
  intro c hc
  rw [← Option.some.inj hc]
  exact toNat_lt_of_isSmall (isSmall_of_isLower ha)

theorem isSpelledWord (h : IsSmallWord w) : IsSpelledWord w.toList := by
  obtain ⟨a, b, rest, heq, ha, hb, hrest⟩ := h
  exact ⟨a, b, rest, heq, by rw [Char.isAlpha, ha, Bool.or_true], hb, hrest⟩

/-- A word with a capital in front is a word that is found in a row of them. -/
theorem capitalised (h : IsSmallWord w) :
    IsSpelledWord (changeFirst Char.toUpper w).toList ∧
      ∀ c ∈ (changeFirst Char.toUpper w).toList.head?, c.isUpper = true := by
  obtain ⟨a, b, rest, heq, ha, hb, hrest⟩ := h
  have hupper := (toUpper_of_isLower ha).1
  rw [toList_changeFirst, heq, List.modifyHead_cons]
  refine ⟨⟨a.toUpper, b, rest, rfl, by rw [Char.isAlpha, hupper, Bool.true_or], hb, hrest⟩, ?_⟩
  intro c hc
  rwa [← Option.some.inj hc]

theorem map_toLower_capitalised (h : IsSmallWord w) :
    (changeFirst Char.toUpper w).toList.map Char.toLower = w.toList := by
  have hlower := map_toLower_of_isWordPart h.isWordPart
  obtain ⟨a, b, rest, heq, ha, hb, hrest⟩ := h
  rw [toList_changeFirst, heq, List.modifyHead_cons]
  rw [heq, List.map_cons] at hlower
  rw [List.map_cons, (List.cons.inj hlower).2, (toUpper_of_isLower ha).2]

end IsSmallWord

/-! ## Words in a row -/

/-- The first piece of a name ends in front of the first capital, if a small letter follows it. -/
theorem pieces_append {c : Char} {letters : List Char}
    (hletters : ∀ d ∈ letters, d.isUpper = false) (hfeed : '\n' ∉ c :: letters) {u l : Char}
    {s : List Char} (hu : u.isUpper = true) (hl : l.isLower = true) :
    pieces (c :: letters ++ u :: l :: s) = (c :: letters) :: pieces (u :: l :: s) := by
  induction letters generalizing c with
  | nil =>
    have hc : c ≠ '\n' := fun hc => hfeed (List.mem_singleton.2 hc.symm)
    have hword : beginsWord c u (l :: s) = true := by simp [beginsWord, hu, hl, hc]
    exact pieces_of_beginsWord hword
  | cons d letters ih =>
    obtain ⟨hd, hletters⟩ := List.forall_mem_cons.1 hletters
    have hword : beginsWord c d (letters ++ u :: l :: s) = false := by
      rw [beginsWord, hd, Bool.false_and]
    have hrest := ih hletters fun hmem => hfeed (List.mem_cons_of_mem c hmem)
    rw [List.cons_append] at hrest
    rw [List.cons_append, List.cons_append, pieces_of_not_beginsWord hword, hrest,
      List.modifyHead_cons]

/-- The pieces of capitalised words in a row are the words. -/
theorem pieces_flatten {first : List Char} {rest : List (List Char)} (hfirst : IsSpelledWord first)
    (hrest : ∀ p ∈ rest, IsSpelledWord p ∧ ∀ c ∈ p.head?, c.isUpper = true) :
    pieces (first ++ rest.flatten) = first :: rest := by
  induction rest generalizing first with
  | nil =>
    obtain ⟨a, letters, rfl, -, hletters⟩ := hfirst.exists_cons
    rw [List.flatten_nil, List.append_nil]
    exact pieces_of_not_isUpper fun c hc => isUpper_of_isWordPart (hletters c hc)
  | cons next rest ih =>
    obtain ⟨⟨hnext, hupper⟩, hrest⟩ := List.forall_mem_cons.1 hrest
    have hbehind := ih hnext hrest
    have hfeed := hfirst.newline_notMem
    obtain ⟨a, letters, rfl, -, hletters⟩ := hfirst.exists_cons
    obtain ⟨u, l, later, rfl, -, hl, -⟩ := hnext
    have hcapitals (c : Char) (hc : c ∈ letters) := isUpper_of_isWordPart (hletters c hc)
    rw [List.flatten_cons]
    exact (pieces_append hcapitals hfeed (hupper u rfl) hl).trans (congrArg _ hbehind)

/-! ## The spellings -/

/-- The words with underscores between them. -/
def snakeSpelling (words : List String) : String :=
  Text.join "_" words

/-- The words one after another, each with its first letter in upper case. -/
def pascalSpelling (words : List String) : String :=
  Text.join "" (words.map (changeFirst Char.toUpper))

/-- The same with the first letter of all in lower case. -/
def camelSpelling (words : List String) : String :=
  changeFirst Char.toLower (pascalSpelling words)

section

variable {words : List String}

theorem toList_pascalSpelling (words : List String) :
    (pascalSpelling words).toList =
      (words.map fun v => (changeFirst Char.toUpper v).toList).flatten := by
  rw [pascalSpelling, Text.toList_join, List.map_map]
  exact Text.nil_intercalate _

theorem toList_camelSpelling {w : String} (hw : IsSmallWord w) (words : List String) :
    (camelSpelling (w :: words)).toList =
      w.toList ++ (words.map fun v => (changeFirst Char.toUpper v).toList).flatten := by
  obtain ⟨a, b, rest, heq, ha, -⟩ := hw
  rw [camelSpelling, toList_changeFirst, toList_pascalSpelling, List.map_cons, List.flatten_cons,
    toList_changeFirst, heq, List.modifyHead_cons, List.cons_append, List.modifyHead_cons,
    (toUpper_of_isLower ha).2]
  rfl

theorem toNat_head_pascalSpelling (h : ∀ w ∈ words, IsSmallWord w) :
    ∀ c ∈ (pascalSpelling words).toList.head?, c.toNat < 128 := by
  rw [toList_pascalSpelling]
  cases words with
  | nil => exact fun c hc => nomatch hc
  | cons w words =>
    obtain ⟨⟨a, b, rest, heq, -⟩, hupper⟩ := (h w List.mem_cons_self).capitalised
    rw [heq] at hupper
    rw [List.map_cons, List.flatten_cons, heq]
    exact fun c hc => toNat_lt_of_isUpper (hupper c hc)

/-- Words of which all but the first are capitalised are found, whether the first one is or not. -/
theorem snakeCase_of_words {x first w : String} (hfirst : IsSpelledWord first.toList)
    (hlower : first.toList.map Char.toLower = w.toList) (hwords : ∀ v ∈ words, IsSmallWord v)
    (hx : x.toList =
      first.toList ++ (words.map fun v => (changeFirst Char.toUpper v).toList).flatten) :
    Text.LowersInAscii x.toList ∧ snakeCase x = snakeSpelling (w :: words) := by
  have hcapitalised : ∀ p ∈ words.map fun v => (changeFirst Char.toUpper v).toList,
      IsSpelledWord p ∧ ∀ c ∈ p.head?, c.isUpper = true := by
    rw [List.forall_mem_map]
    exact fun v hv => (hwords v hv).capitalised
  have hlowers : Text.LowersInAscii x.toList := by
    rw [hx]
    refine List.forall_mem_append.2 ⟨hfirst.lowersInAscii, fun c hc => ?_⟩
    obtain ⟨p, hp, hc⟩ := List.mem_flatten.1 hc
    exact (hcapitalised p hp).1.lowersInAscii c hc
  have hmap : words.map ((fun p => p.map Char.toLower) ∘
      fun v => (changeFirst Char.toUpper v).toList) = words.map String.toList :=
    List.map_congr_left fun v hv => (hwords v hv).map_toLower_capitalised
  refine ⟨hlowers, String.toList_injective ?_⟩
  rw [toList_snakeCase hlowers, spaced, hx, pieces_flatten hfirst hcapitalised,
    Text.map_intercalate, snakeSpelling, Text.toList_join, List.map_cons, List.map_cons, hlower,
    List.map_map, hmap]
  rfl

theorem snakeCase_spelling (hne : words ≠ []) (h : ∀ w ∈ words, IsSmallWord w) :
    ∀ x ∈ [snakeSpelling words, pascalSpelling words, camelSpelling words],
      snakeCase x = snakeSpelling words := by
  obtain ⟨w, words, rfl⟩ := List.exists_cons_of_ne_nil hne
  obtain ⟨hw, hwords⟩ := List.forall_mem_cons.1 h
  obtain ⟨hlowers, hpascal⟩ := snakeCase_of_words (x := pascalSpelling (w :: words)) (w := w)
    hw.capitalised.1 hw.map_toLower_capitalised hwords (toList_pascalSpelling (w :: words))
  obtain ⟨-, hcamel⟩ := snakeCase_of_words (x := camelSpelling (w :: words)) (w := w)
    hw.isSpelledWord (map_toLower_of_isWordPart hw.isWordPart) hwords
    (toList_camelSpelling hw words)
  -- the first spelling is what has just been converted
  have hsnake := snakeCase_snakeCase hlowers
  rw [hpascal] at hsnake
  simp only [List.forall_mem_cons, hsnake, hpascal, hcamel, true_and]
  exact List.forall_mem_nil _

theorem pascalCase_of_snakeCase {x : String} (hne : words ≠ [])
    (hwords : ∀ v ∈ words, IsSmallWord v) (hx : snakeCase x = snakeSpelling words) :
    pascalCase x = pascalSpelling words := by
  have hpieces : (snakeSpelling words).toList.splitOn '_' = words.map String.toList := by
    rw [snakeSpelling, Text.toList_join]
    refine List.splitOn_intercalate '_' ?_ (by simpa using hne)
    rw [List.forall_mem_map]
    exact fun v hv hmem => absurd ((hwords v hv).isWordPart _ hmem) (by decide)
  have hcapitalise : ∀ v ∈ words, capitalise v.toList = (changeFirst Char.toUpper v).toList := by
    intro v hv
    rw [toList_changeFirst, capitalise_eq (hwords v hv).toNat_head]
  refine String.toList_injective ?_
  rw [pascalCase, hx, hpieces, String.toList_ofList, List.flatMap_map, toList_pascalSpelling,
    List.flatMap, List.map_congr_left hcapitalise]

/-- The conventions turn each spelling of a list of words into each other. -/
theorem spellings_agree (hne : words ≠ []) (h : ∀ w ∈ words, IsSmallWord w) :
    ∀ x ∈ [snakeSpelling words, pascalSpelling words, camelSpelling words],
      snakeCase x = snakeSpelling words ∧ pascalCase x = pascalSpelling words ∧
        camelCase x = camelSpelling words ∧ constantCase x = Text.upper (snakeSpelling words) := by
  intro x hx
  have hsnake := snakeCase_spelling hne h x hx
  have hpascal := pascalCase_of_snakeCase hne h hsnake
  have hhead : ∀ c ∈ (pascalCase x).toList.head?, c.toNat < 128 := by
    rw [hpascal]
    exact toNat_head_pascalSpelling h
  refine ⟨hsnake, hpascal, ?_, by rw [constantCase, hsnake]⟩
  rw [camelCase_eq hhead, hpascal, camelSpelling]

theorem spellings_agree_menu :
    (∀ w ∈ ["utf8", "to", "café2", "id"], IsSmallWord w) ∧
    ∀ x ∈ ["utf8_to_café2_id", "Utf8ToCafé2Id", "utf8ToCafé2Id"],
      snakeCase x = "utf8_to_café2_id" ∧ pascalCase x = "Utf8ToCafé2Id" ∧
        camelCase x = "utf8ToCafé2Id" ∧ constantCase x = "UTF8_TO_CAFÉ2_ID" := by
  have hwords : ∀ w ∈ ["utf8", "to", "café2", "id"], IsSmallWord w := by
    simp only [List.forall_mem_cons]
    exact ⟨⟨'u', 't', ['f', '8'], rfl, by decide⟩, ⟨'t', 'o', [], rfl, by decide⟩,
      ⟨'c', 'a', ['f', 'é', '2'], rfl, by decide +kernel⟩, ⟨'i', 'd', [], rfl, by decide⟩,
      List.forall_mem_nil _⟩
  have hupper : Text.upper "utf8_to_café2_id" = "UTF8_TO_CAFÉ2_ID" := by decide +kernel
  refine ⟨hwords, ?_⟩
  rw [← hupper]
  exact spellings_agree (List.cons_ne_nil _ _) hwords

end

end Naming

end SdlTypes
