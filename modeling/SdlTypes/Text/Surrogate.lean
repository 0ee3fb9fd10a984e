/-!
# Surrogates

The sixteen-bit units from 0xD800 to 0xDFFF are no characters. A high one and a low one together
write a character beyond sixteen bits, but a string of an option file may hold a unit without its
partner, for which a `String` has no place.

Texts are therefore kept in a marked form, where such a unit is two characters: a mark and a
character that tells which unit it is. The mark itself is written twice. `written` gives the form
of one code point and `codePoints` reads it back, `marked` brings in a text from outside and
`plain` gives one away. Since the mark is no letter, no blank and no sign of any grammar, texts in
this form are compared, put together and taken apart like others.

`codePoints_flatMap_written` says that nothing is lost on the way.
-/

namespace SdlTypes.Text

/-- Whether a unit is the first of two surrogates. -/
def isHighSurrogate (n : Nat) : Bool := 0xD800 ≤ n && n < 0xDC00

/-- Whether a unit is the second of two surrogates. -/
def isLowSurrogate (n : Nat) : Bool := 0xDC00 ≤ n && n < 0xE000

/-- Whether a unit is a surrogate. -/
def isSurrogate (n : Nat) : Bool := 0xD800 ≤ n && n < 0xE000

/-- Whether a code point is that of a character. -/
def isScalar (n : Nat) : Bool := n < 0x110000 && !isSurrogate n

/-- The code point that two surrogates write. -/
def joinSurrogates (high low : Nat) : Nat :=
  0x10000 + (high - 0xD800) * 0x400 + (low - 0xDC00)

/-! ## The marked form -/

/-- The character that tells that the next one is no character of the text. -/
def mark : Char := Char.ofNat 0x10FFFF

/-- The marked form of a code point. -/
def written (n : Nat) : List Char :=
  if isSurrogate n then [mark, Char.ofNat (0x100000 + n)]
  else if n = 0x10FFFF then [mark, mark]
  else [Char.ofNat n]

/-- The code points of a text in marked form. -/
def codePoints : List Char → List Nat
  | [] => []
  | [c] => [c.toNat]
  | c :: d :: rest =>
    if c = mark then (if d = mark then 0x10FFFF else d.toNat - 0x100000) :: codePoints rest
    else c.toNat :: codePoints (d :: rest)

theorem toNat_ofNat {n : Nat} (h : n.isValidChar) : (Char.ofNat n).toNat = n := by
  rw [Char.ofNat, dif_pos h]
  rfl

theorem isValidChar_of_isScalar {n : Nat} (h : isScalar n) : n.isValidChar := by
  simp only [isScalar, isSurrogate, Bool.and_eq_true, Bool.not_eq_true', Bool.and_eq_false_iff,
    decide_eq_true_eq, decide_eq_false_iff_not, Nat.not_le, Nat.not_lt] at h
  simp only [Nat.isValidChar]
  omega

theorem codePoints_cons {c : Char} (h : c ≠ mark) (s : List Char) :
    codePoints (c :: s) = c.toNat :: codePoints s := by
  cases s with
  | nil => rfl
  | cons d rest => simp [codePoints, h]

theorem codePoints_written_append {n : Nat} (h : n < 0x110000) (s : List Char) :
    codePoints (written n ++ s) = n :: codePoints s := by
  have hm : mark.toNat = 0x10FFFF := toNat_ofNat (by decide)
  by_cases hs : isSurrogate n
  · have hb : 0xD800 ≤ n ∧ n < 0xE000 := by simpa [isSurrogate] using hs
    have hu : (Char.ofNat (0x100000 + n)).toNat = 0x100000 + n :=
      toNat_ofNat (Or.inr ⟨by omega, by omega⟩)
    have hne : Char.ofNat (0x100000 + n) ≠ mark := fun he => by
      rw [he, hm] at hu
      omega
    simp [written, hs, codePoints, hne, hu]
  · have hv : (Char.ofNat n).toNat = n :=
      toNat_ofNat (isValidChar_of_isScalar (by simp [isScalar, hs, h]))
    by_cases hn : n = 0x10FFFF
    · simp [written, hn, isSurrogate, codePoints]
    · have hne : Char.ofNat n ≠ mark := fun he => by
        rw [he, hm] at hv
        omega
      simp [written, hs, hn, codePoints_cons hne, hv]

theorem codePoints_flatMap_written {ns : List Nat} (h : ∀ n ∈ ns, n < 0x110000) :
    codePoints (ns.flatMap written) = ns := by
  induction ns with
  | nil => rfl
  | cons n ns ih =>
    rw [List.flatMap_cons, codePoints_written_append (h n (by simp)),
      ih fun m hm => h m (by simp [hm])]

/-! ## Texts from outside and to the outside -/

/-- The marked form of a text of characters. -/
def marked (s : String) : String :=
  String.ofList (s.toList.flatMap fun c => written c.toNat)

/-- Whether a text holds characters only, so that it can be written to a file. -/
def isPlain (s : String) : Bool :=
  (codePoints s.toList).all isScalar

/-- The characters of a text in marked form. -/
def plain (s : String) : String :=
  String.ofList ((codePoints s.toList).map Char.ofNat)

theorem codePoints_marked (s : String) :
    codePoints (marked s).toList = s.toList.map Char.toNat := by
  rw [marked, String.toList_ofList, ← List.flatMap_map]
  refine codePoints_flatMap_written fun n hn => ?_
  obtain ⟨c, -, rfl⟩ := List.mem_map.1 hn
  have := c.valid
  simp only [UInt32.isValidChar, Nat.isValidChar] at this
  simp only [Char.toNat]
  omega

theorem plain_marked (s : String) : plain (marked s) = s := by
  simp [plain, codePoints_marked, Function.comp_def]

end SdlTypes.Text
