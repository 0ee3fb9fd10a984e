import SdlTypes.Naming
import SdlTypes.Proofs.CommentRemoval
import SdlTypes.Sdl.Token
import SdlTypes.Text.Blank

/-!
# Characters of converted names

A naming convention moves the words of a name, changes their case and puts underscores between
them; it brings no characters into a name that names do not have
(`Convention.areNameParts_apply`).

Identifiers of the target language may have further characters. `Text.IsWord` is a text that could
be one, whatever it begins with.
-/

namespace SdlTypes

open Sdl.Token

/-- Characters that names consist of. -/
def AreNameParts (s : List Char) : Prop :=
  ∀ c ∈ s, isNamePart c

theorem areNameParts_of_all {s : List Char} (h : s.all isNamePart = true) : AreNameParts s :=
  List.all_eq_true.1 h

theorem areNameParts_append {s t : List Char} :
    AreNameParts (s ++ t) ↔ AreNameParts s ∧ AreNameParts t :=
  List.forall_mem_append

theorem areNameParts_cons {c : Char} {s : List Char} :
    AreNameParts (c :: s) ↔ isNamePart c ∧ AreNameParts s :=
  List.forall_mem_cons

theorem AreNameParts.of_subset {s t : List Char} (h : AreNameParts t) (hs : s ⊆ t) :
    AreNameParts s :=
  fun c hc => h c (hs hc)

theorem AreNameParts.slashFree {s : String} (h : AreNameParts s.toList) : Text.SlashFree s :=
  fun hmem => absurd (h _ hmem) (by decide)

namespace Text

theorem toNat_lt_of_isNamePart {c : Char} (h : isNamePart c) : c.toNat < 128 := by
  have hranges : ((decide ('A'.val ≤ c.val ∧ c.val ≤ 'Z'.val) ||
      (decide ('a'.val ≤ c.val) && decide (c.val ≤ 'z'.val))) ||
        (decide ('0'.val ≤ c.val) && decide (c.val ≤ '9'.val)) || decide (c = '_')) = true := h
  simp only [UInt32.le_iff_toNat_le, Bool.or_eq_true, Bool.and_eq_true,
    decide_eq_true_eq] at hranges
  change c.val.toNat < 128
  rcases hranges with ((⟨-, h⟩ | ⟨-, h⟩) | ⟨-, h⟩) | rfl
  · exact h.trans_lt (by decide)
  · exact h.trans_lt (by decide)
  · exact h.trans_lt (by decide)
  · decide

/-- What is so of all ASCII characters, which can be gone through, is so of a character that is
known to be one. -/
theorem forall_ascii {p : Char → Prop} (hall : ∀ n < 128, p (Char.ofNat n)) {c : Char}
    (h : c.toNat < 128) : p c := by
  have := hall c.toNat h
  rwa [Char.ofNat_toNat] at this

/-- On the characters of names the case mappings stay among these. -/
theorem isNamePart_toUpper_toLower {c : Char} (h : isNamePart c) :
    isNamePart c.toUpper ∧ isNamePart c.toLower :=
  forall_ascii (p := fun c => isNamePart c → isNamePart c.toUpper ∧ isNamePart c.toLower)
    (by decide) (toNat_lt_of_isNamePart h) h

theorem areNameParts_upperChar {c : Char} (h : isNamePart c) : AreNameParts (upperChar c) := by
  rw [upperChar, if_pos (toNat_lt_of_isNamePart h)]
  exact areNameParts_cons.2 ⟨(isNamePart_toUpper_toLower h).1, List.forall_mem_nil _⟩

theorem areNameParts_lowerChar {c : Char} (h : isNamePart c) : AreNameParts (lowerChar c) := by
  rw [lowerChar, if_pos (toNat_lt_of_isNamePart h)]
  exact areNameParts_cons.2 ⟨(isNamePart_toUpper_toLower h).2, List.forall_mem_nil _⟩

theorem areNameParts_lowerChars {s : List Char} (h : AreNameParts s) (before : List Char) :
    AreNameParts (lowerChars before s) := by
  induction s generalizing before with
  | nil => exact h
  | cons c s ih =>
    obtain ⟨hc, hs⟩ := areNameParts_cons.1 h
    have hsigma : c.toNat ≠ 0x3A3 := by
      have := toNat_lt_of_isNamePart hc
      omega
    rw [lowerChars, if_neg hsigma]
    exact areNameParts_append.2 ⟨areNameParts_lowerChar hc, ih hs _⟩

theorem areNameParts_lower {s : String} (h : AreNameParts s.toList) :
    AreNameParts (lower s).toList := by
  rw [lower, String.toList_ofList]
  exact areNameParts_lowerChars h []

theorem areNameParts_upper {s : String} (h : AreNameParts s.toList) :
    AreNameParts (upper s).toList := by
  rw [upper, String.toList_ofList]
  intro c hc
  obtain ⟨d, hd, hc⟩ := List.mem_flatMap.1 hc
  exact areNameParts_upperChar (h d hd) c hc

end Text

namespace Naming

/-- Breaks before words are underscores. -/
theorem mem_breakBeforeWords {s : List Char} {c : Char} (h : c ∈ breakBeforeWords s) :
    c ∈ s ∨ c = '_' := by
  fun_induction breakBeforeWords s with
  | case1 a u l rest hbreak ih =>
    have htake : ∀ d ∈ rest.takeWhile Char.isLower, d ∈ rest :=
      (List.takeWhile_sublist _).subset
    have hdrop : ∀ d ∈ rest.dropWhile Char.isLower, d ∈ rest :=
      (List.dropWhile_sublist _).subset
    grind
  | case2 a u l rest hbreak ih => grind
  | case3 => exact .inl h

/-- Breaks before capitals are underscores. -/
theorem mem_breakBeforeCapitals {s : List Char} {c : Char} (h : c ∈ breakBeforeCapitals s) :
    c ∈ s ∨ c = '_' := by
  fun_induction breakBeforeCapitals s with
  | case1 a b rest hbreak ih => grind
  | case2 a b rest hbreak ih => grind
  | case3 => exact .inl h

theorem areNameParts_snakeCase {s : String} (h : AreNameParts s.toList) :
    AreNameParts (snakeCase s).toList := by
  refine Text.areNameParts_lower ?_
  rw [String.toList_ofList]
  intro c hc
  rcases mem_breakBeforeCapitals hc with hc | rfl
  · rcases mem_breakBeforeWords hc with hc | rfl
    · exact h c hc
    · decide
  · decide

theorem areNameParts_pascalCase {s : String} (h : AreNameParts s.toList) :
    AreNameParts (pascalCase s).toList := by
  rw [pascalCase, String.toList_ofList]
  intro c hc
  obtain ⟨word, hword, hc⟩ := List.mem_flatMap.1 hc
  have hparts : AreNameParts word :=
    (areNameParts_snakeCase h).of_subset (Text.isInfix_of_mem_splitOnP _ _ word hword).subset
  cases word with
  | nil => cases hc
  | cons d word =>
    obtain ⟨hd, hrest⟩ := areNameParts_cons.1 hparts
    exact areNameParts_append.2 ⟨Text.areNameParts_upperChar hd, hrest⟩ c hc

theorem areNameParts_camelCase {s : String} (h : AreNameParts s.toList) :
    AreNameParts (camelCase s).toList := by
  have hpascal := areNameParts_pascalCase h
  unfold camelCase
  split
  · exact List.forall_mem_nil _
  · next c rest heq =>
    rw [heq, areNameParts_cons] at hpascal
    rw [String.toList_ofList]
    refine areNameParts_append.2 ⟨Text.areNameParts_lowerChars ?_ [], hpascal.2⟩
    exact areNameParts_cons.2 ⟨hpascal.1, List.forall_mem_nil _⟩

end Naming

/-- A converted name consists of characters of names. -/
theorem Convention.areNameParts_apply (convention : Convention) {s : String}
    (h : AreNameParts s.toList) : AreNameParts (convention.apply s).toList := by
  unfold apply
  cases convention with
  | keep => simpa only [id_eq] using h
  | pascal => exact Naming.areNameParts_pascalCase h
  | camel => exact Naming.areNameParts_camelCase h
  | snake => exact Naming.areNameParts_snakeCase h
  | constant => exact Text.areNameParts_upper (Naming.areNameParts_snakeCase h)
  | upper => exact Text.areNameParts_upper h
  | lower => exact Text.areNameParts_lower h

/-! ## Words -/

namespace Text

/-- What all characters of a text have in common is decided along the text, and never by a search
through all characters that there are. -/
instance (priority := high) decidableForallMemChar {p : Char → Prop} [DecidablePred p]
    (s : List Char) : Decidable (∀ c ∈ s, p c) :=
  List.decidableBAll p s

/-- The characters of identifiers: those of names, the dollar sign, and what is not ASCII and no
blank. -/
def isIdentifierPart (c : Char) : Bool :=
  isNamePart c || c = '$' || (128 ≤ c.toNat && !isBlank c)

/-- Characters that identifiers consist of. -/
def AreIdentifierParts (s : List Char) : Prop :=
  ∀ c ∈ s, isIdentifierPart c

/-- A text of one or more characters of identifiers. -/
structure IsWord (s : String) : Prop where
  nonempty : s ≠ ""
  parts : AreIdentifierParts s.toList

instance (s : List Char) : Decidable (AreIdentifierParts s) :=
  inferInstanceAs (Decidable (∀ c ∈ s, isIdentifierPart c))

instance (s : String) : Decidable (IsWord s) :=
  decidable_of_iff (s ≠ "" ∧ AreIdentifierParts s.toList) ⟨fun h => ⟨h.1, h.2⟩, fun h => ⟨h.1, h.2⟩⟩

theorem areIdentifierParts_append {s t : List Char} :
    AreIdentifierParts (s ++ t) ↔ AreIdentifierParts s ∧ AreIdentifierParts t :=
  List.forall_mem_append

theorem AreIdentifierParts.notMem {s : List Char} (h : AreIdentifierParts s) {c : Char}
    (hc : isIdentifierPart c = false) : c ∉ s := fun hmem =>
  absurd (h c hmem) (by rw [hc]; decide)

/-- Among the ASCII characters no blank is part of an identifier. -/
theorem isBlank_of_isIdentifierPart {c : Char} (h : isIdentifierPart c) : isBlank c = false := by
  by_cases hlt : c.toNat < 128
  · exact forall_ascii (p := fun c => isIdentifierPart c → isBlank c = false) (by decide) hlt h
  · have hname : ¬isNamePart c := fun hname => hlt (toNat_lt_of_isNamePart hname)
    have hdollar : c ≠ '$' := by
      rintro rfl
      exact hlt (by decide)
    simpa [isIdentifierPart, hname, hdollar, not_lt.1 hlt] using h

end Text

theorem AreNameParts.areIdentifierParts {s : List Char} (h : AreNameParts s) :
    Text.AreIdentifierParts s := fun c hc => by
  rw [Text.isIdentifierPart, h c hc]
  rfl

end SdlTypes
