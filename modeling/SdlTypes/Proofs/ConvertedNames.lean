import SdlTypes.Proofs.Spellings
import SdlTypes.Proofs.TypeTexts

/-!
# Converted names as names

What a name is converted to is declared, so it has to be spelled like a name again. It consists of
the characters of names (`Convention.areNameParts_apply`), and it is a name if it begins with one
of them that is no digit (`isName_iff`).

Most conventions keep the first character but for its case. The two that leave the underscores out
begin with the first character that is none, and there need not be one, or it may be a digit. With
these conventions a name is converted to a name if and only if the first character that is no
underscore is a letter (`Convention.isName_affixed_iff`).
-/

namespace SdlTypes

open Sdl Sdl.Token

theorem AreNameParts.ascii {s : List Char} (h : AreNameParts s) : ∀ c ∈ s, c.toNat < 128 :=
  fun c hc => Text.toNat_lt_of_isNamePart (h c hc)

theorem isNameStart_iff {c : Char} (h : isNamePart c) : isNameStart c ↔ c.isDigit = false :=
  Text.forall_ascii (p := fun c => isNamePart c → (isNameStart c ↔ c.isDigit = false)) (by decide)
    (Text.toNat_lt_of_isNamePart h) h

/-- Characters of names are a name if they begin with something other than a digit. -/
theorem isName_iff {s : String} (h : AreNameParts s.toList) :
    IsName s ↔ ∃ c, s.toList.head? = some c ∧ c.isDigit = false := by
  constructor
  · rintro ⟨c, rest, heq, hc, -⟩
    rw [heq] at h ⊢
    exact ⟨c, rfl, (isNameStart_iff (areNameParts_cons.1 h).1).1 hc⟩
  · rintro ⟨c, hhead, hc⟩
    obtain ⟨rest, heq⟩ := List.head?_eq_some_iff.1 hhead
    rw [heq] at h
    obtain ⟨hpart, hrest⟩ := areNameParts_cons.1 h
    exact ⟨c, rest, heq, (isNameStart_iff hpart).2 hc, hrest⟩

/-- Whether a text is a name can be told from the character that its first one comes from. -/
theorem isName_iff_of_head? {s : String} (h : AreNameParts s.toList) {source : Option Char}
    {f : Char → Char} (hhead : s.toList.head? = source.map f)
    (hf : ∀ c ∈ source, (f c).isDigit = c.isDigit) :
    IsName s ↔ ∃ c, source = some c ∧ c.isDigit = false := by
  rw [isName_iff h, hhead]
  cases source with
  | none => simp
  | some c => simp [hf c rfl]

namespace Text

/-- The case of a character does not matter for what a name may begin with. -/
theorem isDigit_toLower_toUpper {c : Char} (h : c.toNat < 128) :
    c.toLower.isDigit = c.isDigit ∧ c.toUpper.isDigit = c.isDigit :=
  forall_ascii (p := fun c => c.toLower.isDigit = c.isDigit ∧ c.toUpper.isDigit = c.isDigit)
    (by decide) h

theorem toList_upper {s : String} (h : ∀ c ∈ s.toList, c.toNat < 128) :
    (upper s).toList = s.toList.map Char.toUpper := by
  have hchar : ∀ c ∈ s.toList, upperChar c = [c.toUpper] := fun c hc => by
    rw [upperChar, if_pos (h c hc)]
  rw [upper, String.toList_ofList, List.flatMap, List.map_congr_left hchar, ← List.flatMap]
  exact List.map_eq_flatMap.symm

end Text

namespace Naming

variable {s : String}

/-- The first character of a name stays the first. -/
theorem head?_spaced (s : List Char) : (spaced s).head? = s.head? := by
  cases s with
  | nil => rfl
  | cons c s =>
    obtain ⟨piece, later, heq⟩ := exists_pieces_cons c s
    rw [spaced, heq]
    cases later <;> rfl

theorem toUpper_comp_toLower : Char.toUpper ∘ Char.toLower = Char.toUpper :=
  funext Char.toUpper_toLower_eq_toUpper

theorem head?_snakeCase (h : AreNameParts s.toList) :
    (snakeCase s).toList.head? = s.toList.head?.map Char.toLower := by
  rw [toList_snakeCase (Text.lowersInAscii_of_ascii h.ascii), List.head?_map, head?_spaced]

theorem head?_constantCase (h : AreNameParts s.toList) :
    (constantCase s).toList.head? = s.toList.head?.map Char.toUpper := by
  rw [constantCase, Text.toList_upper (areNameParts_snakeCase h).ascii, List.head?_map,
    head?_snakeCase h, Option.map_map, toUpper_comp_toLower]

theorem find?_snakeCase (h : AreNameParts s.toList) :
    (snakeCase s).toList.find? (· ≠ '_') = (s.toList.find? (· ≠ '_')).map Char.toLower := by
  rw [toList_snakeCase (Text.lowersInAscii_of_ascii h.ascii), ← List.head?_filter,
    filter_map_toLower, filter_spaced, List.head?_map, List.head?_filter]

/-- Capitalised words begin with the first character that is no underscore. -/
theorem head?_flatMap_capitalise {s : List Char} (h : ∀ c ∈ s, c.toNat < 128) :
    ((s.splitOn '_').flatMap capitalise).head? = (s.find? (· ≠ '_')).map Char.toUpper := by
  induction s with
  | nil => rfl
  | cons c s ih =>
    obtain ⟨hc, hs⟩ := List.forall_mem_cons.1 h
    obtain ⟨word, later, heq⟩ := List.exists_cons_of_ne_nil (List.splitOn_ne_nil '_' s)
    rw [List.splitOn_cons_eq_if_modifyHead]
    split_ifs with hmark
    · rw [List.find?_cons_of_neg (by simpa using hmark), ← ih hs]
      rfl
    · have hword : ∀ d ∈ (c :: word).head?, d.toNat < 128 := fun d hd => by
        rwa [← Option.some.inj hd]
      rw [List.find?_cons_of_pos (by simpa using hmark), heq, List.modifyHead_cons,
        List.flatMap_cons, capitalise_eq hword]
      rfl

theorem head?_pascalCase (h : AreNameParts s.toList) :
    (pascalCase s).toList.head? = (s.toList.find? (· ≠ '_')).map Char.toUpper := by
  rw [pascalCase, String.toList_ofList, head?_flatMap_capitalise (areNameParts_snakeCase h).ascii,
    find?_snakeCase h, Option.map_map, toUpper_comp_toLower]

theorem head?_camelCase (h : AreNameParts s.toList) :
    (camelCase s).toList.head? = (s.toList.find? (· ≠ '_')).map Char.toLower := by
  have hcase : Char.toLower ∘ Char.toUpper = Char.toLower :=
    funext Char.toLower_toUpper_eq_toLower
  have hascii : ∀ c ∈ (pascalCase s).toList.head?, c.toNat < 128 := fun c hc =>
    (areNameParts_pascalCase h).ascii c (List.mem_of_mem_head? hc)
  have hfirst (f : Char → Char) (t : List Char) : (t.modifyHead f).head? = t.head?.map f := by
    cases t <;> rfl
  rw [camelCase_eq hascii, toList_changeFirst, hfirst, head?_pascalCase h, Option.map_map, hcase]

end Naming

namespace Convention

variable {name : String}

/-- The conventions that keep the first character turn names into names. -/
theorem isName_of_head? {s : String} (h : IsName name) (hs : AreNameParts s.toList)
    {f : Char → Char} (hhead : s.toList.head? = name.toList.head?.map f)
    (hf : ∀ c, c.toNat < 128 → (f c).isDigit = c.isDigit) : IsName s := by
  have hascii := h.areNameParts.ascii
  rw [isName_iff_of_head? hs hhead fun c hc => hf c (hascii c (List.mem_of_mem_head? hc))]
  exact (isName_iff h.areNameParts).1 h

/-- The conventions that leave out the underscores need a letter behind them. -/
theorem isName_iff_of_find? {s : String} (h : IsName name) (hs : AreNameParts s.toList)
    {f : Char → Char} (hhead : s.toList.head? = (name.toList.find? (· ≠ '_')).map f)
    (hf : ∀ c, c.toNat < 128 → (f c).isDigit = c.isDigit) :
    IsName s ↔ ∃ c, name.toList.find? (· ≠ '_') = some c ∧ c.isAlpha = true := by
  have hmem : ∀ c ∈ name.toList.find? (· ≠ '_'), isNamePart c ∧ c ≠ '_' := fun c hc =>
    ⟨h.areNameParts c (List.mem_of_find?_eq_some hc), by simpa using List.find?_some hc⟩
  rw [isName_iff_of_head? hs hhead fun c hc =>
    hf c (Text.toNat_lt_of_isNamePart (hmem c hc).1)]
  refine exists_congr fun c => and_congr_right fun hc => ?_
  obtain ⟨hpart, hmark⟩ := hmem c hc
  rw [← isNameStart_iff hpart, isNameStart, decide_eq_false hmark, Bool.or_false]

/-- A name is converted to a name, unless the convention leaves out the underscores and there is no
letter behind those that the name begins with. -/
theorem isName_affixed_iff (convention : Convention) (h : IsName name) :
    IsName (Naming.affixed convention.apply "" "" name) ↔
      (convention = .pascal ∨ convention = .camel →
        ∃ c, name.toList.find? (· ≠ '_') = some c ∧ c.isAlpha = true) := by
  have halone : Naming.affixed convention.apply "" "" name = convention.apply name := by
    rw [Naming.affixed, String.empty_append, String.append_empty]
  have hname := h.areNameParts
  have hparts := convention.areNameParts_apply hname
  have hdigit {c : Char} (hc : c.toNat < 128) := Text.isDigit_toLower_toUpper hc
  rw [halone]
  cases convention with
  | keep => exact iff_of_true h (by simp)
  | pascal =>
    rw [isName_iff_of_find? h hparts (Naming.head?_pascalCase hname) fun c hc => (hdigit hc).2]
    simp
  | camel =>
    have hhead := Naming.head?_camelCase hname
    rw [apply] at hparts ⊢
    rw [isName_iff_of_find? h hparts hhead fun c hc => (hdigit hc).1]
    simp
  | snake =>
    refine iff_of_true (isName_of_head? h hparts ?_ fun c hc => (hdigit hc).1) (by simp)
    exact Naming.head?_snakeCase hname
  | constant =>
    refine iff_of_true (isName_of_head? h hparts ?_ fun c hc => (hdigit hc).2) (by simp)
    exact Naming.head?_constantCase hname
  | upper =>
    refine iff_of_true (isName_of_head? h hparts ?_ fun c hc => (hdigit hc).2) (by simp)
    rw [apply, Text.toList_upper hname.ascii, List.head?_map]
  | lower =>
    refine iff_of_true (isName_of_head? h hparts ?_ fun c hc => (hdigit hc).1) (by simp)
    rw [apply, Text.toList_lower (Text.lowersInAscii_of_ascii hname.ascii), List.head?_map]

theorem isName_affixed_iff_leading :
    IsName "__v2_beta" ∧ Naming.affixed pascal.apply "" "" "__v2_beta" = "V2Beta" ∧
      IsName "V2Beta" := by
  have hname : IsName "__v2_beta" :=
    ⟨'_', "_v2_beta".toList, rfl, by decide, areNameParts_of_all (by decide)⟩
  have hconverted : Naming.affixed pascal.apply "" "" "__v2_beta" = "V2Beta" := by decide +kernel
  have hletter : ∃ c, "__v2_beta".toList.find? (· ≠ '_') = some c ∧ c.isAlpha = true :=
    ⟨'v', by decide, by decide⟩
  have := (isName_affixed_iff .pascal hname).2 fun _ => hletter
  rw [hconverted] at this
  exact ⟨hname, hconverted, this⟩

/-- Of underscores alone nothing is left, and of a number behind an underscore the number. -/
theorem not_isName_affixed_underscore :
    (IsName "_" ∧ Naming.affixed pascal.apply "" "" "_" = "" ∧
      ¬IsName (Naming.affixed pascal.apply "" "" "_")) ∧
    IsName "_1" ∧ Naming.affixed camel.apply "" "" "_1" = "1" ∧
      ¬IsName (Naming.affixed camel.apply "" "" "_1") := by
  have hempty : Naming.affixed pascal.apply "" "" "_" = "" := by decide +kernel
  have hnumber : Naming.affixed camel.apply "" "" "_1" = "1" := by decide +kernel
  rw [hempty, hnumber]
  refine ⟨⟨⟨'_', [], rfl, by decide⟩, rfl, fun h => h.ne_empty rfl⟩,
    ⟨'_', ['1'], rfl, by decide⟩, rfl, ?_⟩
  rintro ⟨c, rest, heq, hc, -⟩
  cases heq
  exact absurd hc (by decide)

end Convention

end SdlTypes
