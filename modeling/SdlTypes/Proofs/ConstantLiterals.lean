import SdlTypes.Proofs.EnumConstants

/-!
# The literals of enum constants

In both forms of an enum the constant stands behind the name or the bar, and it ought to be a
literal of the target language on one line (`IsConstantLiteral`). For a number it is, and for a
text without a line break: `Text.literalBody_escape` says that no quote of the text is left
unescaped. But a line break stays as it is, and the truth values are written with a capital
letter. So a constant is a literal if and only if its value is plain
(`Constant.isConstantLiteral_literal_iff`), and `FoldContext.isConstantLiteral_enumerator_iff` says
so of what enums become.
-/

namespace SdlTypes

open Sdl

/-! ## Texts between quotes -/

namespace Text

/-- What may stand between the quotes of a literal: characters other than the quote and the
backslash, and backslashes with the character that each of them escapes. -/
inductive LiteralBody (quote : Char) : List Char → Prop
  | nil : LiteralBody quote []
  | plain {c : Char} {rest : List Char} (hquote : c ≠ quote) (hslash : c ≠ '\\')
    (hrest : LiteralBody quote rest) : LiteralBody quote (c :: rest)
  | escaped (c : Char) {rest : List Char} (hrest : LiteralBody quote rest) :
    LiteralBody quote ('\\' :: c :: rest)

theorem LiteralBody.of_plain {quote : Char} {s : List Char}
    (h : ∀ c ∈ s, c ≠ quote ∧ c ≠ '\\') : LiteralBody quote s := by
  induction s with
  | nil => exact .nil
  | cons c s ih =>
    rw [List.forall_mem_cons] at h
    exact .plain h.1.1 h.1.2 (ih h.2)

theorem mem_escape {mark c : Char} {s : List Char} :
    c ∈ escape mark s ↔ c ∈ s ∨ c = '\\' ∧ mark ∈ s := by
  unfold escape
  induction s with
  | nil => simp
  | cons x s ih =>
    rw [List.flatMap_cons, List.mem_append, ih]
    split_ifs with hx
    · subst hx
      simp only [List.mem_cons, List.not_mem_nil, or_false, true_or, and_true]
      tauto
    · have hmark : mark ≠ x := fun h => hx h.symm
      simp only [List.mem_cons, List.not_mem_nil, or_false, hmark, false_or]
      tauto

/-- Escaping keeps the line breaks of a text. -/
theorem mem_escape_of_ne {mark c : Char} (hc : c ≠ '\\') {s : List Char} :
    c ∈ escape mark s ↔ c ∈ s := by
  rw [mem_escape, or_iff_left fun h => hc h.1]

/-- The second escaping leaves alone what the first one has written, so that there is a backslash
before every backslash and every quote of the text and nowhere else. -/
theorem escape_escape (s : List Char) :
    escape '\'' (escape '\\' s) =
      s.flatMap fun c => if c = '\\' ∨ c = '\'' then ['\\', c] else [c] := by
  unfold escape
  rw [List.flatMap_assoc]
  refine List.flatMap_congr fun c _ => ?_
  by_cases hslash : c = '\\'
  · subst hslash
    rfl
  by_cases hquote : c = '\''
  · subst hquote
    rfl
  · simp [hslash, hquote]

/-- An escaped text can stand between single quotes. -/
theorem literalBody_escape (s : List Char) :
    LiteralBody '\'' (escape '\'' (escape '\\' s)) := by
  rw [escape_escape]
  induction s with
  | nil => exact .nil
  | cons c s ih =>
    rw [List.flatMap_cons]
    split_ifs with hc
    · exact .escaped c ih
    · rw [not_or] at hc
      exact .plain hc.2 hc.1 ih

end Text

/-! ## Literals -/

/-- The digits of a number: a zero alone, or digits of which the first is none. -/
structure IsDecimal (digits : List Char) : Prop where
  nonempty : digits ≠ []
  isDigit : ∀ c ∈ digits, c.isDigit = true
  zero : digits.head? = some '0' → digits = ['0']

/-- A literal on one line for a number, a truth value or a text. -/
inductive IsConstantLiteral : String → Prop
  | number (negative : Bool) {digits : List Char} (h : IsDecimal digits) :
    IsConstantLiteral ((if negative then "-" else "") ++ String.ofList digits)
  | truth (value : Bool) : IsConstantLiteral (if value then "true" else "false")
  | text {s : List Char} (hbody : Text.LiteralBody '\'' s) (hfeed : '\n' ∉ s)
    (hreturn : '\r' ∉ s) : IsConstantLiteral ("'" ++ String.ofList s ++ "'")

theorem IsDecimal.notMem {digits : List Char} (h : IsDecimal digits) {c : Char}
    (hc : c.isDigit = false) : c ∉ digits := fun hmem =>
  absurd (h.isDigit c hmem) (by rw [hc]; decide)

/-- A literal is on one line. -/
theorem IsConstantLiteral.onLine {s : String} (h : IsConstantLiteral s) :
    '\n' ∉ s.toList ∧ '\r' ∉ s.toList := by
  cases h with
  | number negative h =>
    have hfeed := h.notMem (c := '\n') (by decide)
    have hreturn := h.notMem (c := '\r') (by decide)
    cases negative <;> simpa using ⟨hfeed, hreturn⟩
  | truth value => cases value <;> decide
  | text hbody hfeed hreturn => simpa using ⟨hfeed, hreturn⟩

/-- A literal begins with a sign, a digit, a quote or a small letter. -/
theorem IsConstantLiteral.head {s : String} (h : IsConstantLiteral s) :
    ∃ c rest, s.toList = c :: rest ∧
      (c = '-' ∨ c.isDigit = true ∨ c = '\'' ∨ c = 't' ∨ c = 'f') := by
  cases h with
  | @number negative digits h =>
    cases negative with
    | true => exact ⟨'-', digits, by simp, .inl rfl⟩
    | false =>
      obtain ⟨c, rest, rfl⟩ := List.exists_cons_of_ne_nil h.nonempty
      exact ⟨c, rest, by simp, .inr (.inl (h.isDigit c List.mem_cons_self))⟩
  | truth value => cases value <;> exact ⟨_, _, rfl, by decide⟩
  | @text body hbody hfeed hreturn =>
    exact ⟨'\'', body ++ ['\''], by simp, .inr (.inr (.inl rfl))⟩

/-! ## Constants -/

/-- Only the digits of zero begin with a zero. -/
theorem head?_toDigits {n : Nat} (h : n ≠ 0) : (Nat.toDigits 10 n).head? ≠ some '0' := by
  induction n using Nat.strongRecOn with
  | ind n ih =>
    by_cases hlt : n < 10
    · rw [Nat.toDigits_of_lt_base hlt]
      have hdigit : ∀ m : Fin 10, m.val ≠ 0 → [m.val.digitChar].head? ≠ some '0' := by decide
      exact hdigit ⟨n, hlt⟩ h
    · have hle : 10 ≤ n := not_lt.1 hlt
      have hhead := ih (n / 10) (by omega) (by omega)
      rw [Nat.toDigits_of_base_le (by decide) hle, List.head?_append]
      cases hdigits : (Nat.toDigits 10 (n / 10)).head? with
      | none => exact absurd (List.head?_eq_none_iff.1 hdigits) Nat.toDigits_ne_nil
      | some c => rwa [Option.some_or, ← hdigits]

theorem isDecimal_toDigits (n : Nat) : IsDecimal (Nat.toDigits 10 n) where
  nonempty := Nat.toDigits_ne_nil
  isDigit _ hc := Nat.isDigit_of_mem_toDigits (by decide) (by decide) hc
  zero hhead := by
    by_cases hn : n = 0
    · rw [hn]
      rfl
    · exact absurd hhead (head?_toDigits hn)

namespace Constant

/-- A number, or a text without a line break. -/
def IsPlain : Constant → Prop
  | .text value => '\n' ∉ value.toList ∧ '\r' ∉ value.toList
  | .int _ => True
  | .bool _ => False

instance (v : Constant) : Decidable v.IsPlain :=
  match v with
  | .text _ => inferInstanceAs (Decidable (_ ∧ _))
  | .int _ => inferInstanceAs (Decidable True)
  | .bool _ => inferInstanceAs (Decidable False)

theorem isConstantLiteral_int (value : Int) : IsConstantLiteral (literal (.int value)) := by
  cases value with
  | ofNat n => exact .number false (isDecimal_toDigits n)
  | negSucc n => exact .number true (isDecimal_toDigits (n + 1))

/-- A quoted text is on one line if the text is. -/
theorem isConstantLiteral_text_iff (value : String) :
    IsConstantLiteral (literal (.text value)) ↔ '\n' ∉ value.toList ∧ '\r' ∉ value.toList := by
  have hmem {c : Char} (hc : c ≠ '\\') :
      c ∈ Text.escape '\'' (Text.escape '\\' value.toList) ↔ c ∈ value.toList := by
    rw [Text.mem_escape_of_ne hc, Text.mem_escape_of_ne hc]
  have hfeed := hmem (by decide : '\n' ≠ '\\')
  have hreturn := hmem (by decide : '\r' ≠ '\\')
  constructor
  · intro h
    simpa [literal, Text.quoted, hfeed, hreturn] using h.onLine
  · rintro ⟨hf, hr⟩
    exact .text (Text.literalBody_escape _) (mt hfeed.1 hf) (mt hreturn.1 hr)

/-- Truth values are written with a capital letter, as no literal is. -/
theorem not_isConstantLiteral_bool (value : Bool) : ¬IsConstantLiteral (literal (.bool value)) := by
  intro h
  obtain ⟨c, rest, heq, hc⟩ := h.head
  cases value <;> cases heq <;> exact absurd hc (by decide)

/-- A constant is written as a literal just if its value is plain. -/
theorem isConstantLiteral_literal_iff (v : Constant) :
    IsConstantLiteral v.literal ↔ v.IsPlain := by
  cases v with
  | text value => exact isConstantLiteral_text_iff value
  | int value => exact iff_of_true (isConstantLiteral_int value) trivial
  | bool value => exact iff_of_false (not_isConstantLiteral_bool value) id

end Constant

/-! ## Entries of enums -/

namespace Enumerator

variable (e : Enumerator)

theorem line_eq : e.line = e.comment ++ ("  " ++ e.name ++ " = " ++ e.value.literal ++ ",") := by
  rw [line, indent]
  simp only [String.append_assoc]
  rfl

theorem arm_eq : e.arm = e.comment ++ ("  | " ++ e.value.literal) := by
  have hbar : "  | " = "  " ++ "| " := rfl
  rw [arm, indent, hbar, String.append_assoc]
  rfl

end Enumerator

namespace FoldContext

/-- A definition of an enum becomes one declaration with an entry for each of its values, unless
another module provides the enum. As a line of an enum and as an arm of a union alike, an entry
ends in the constant, which is a literal if and only if its value is plain. -/
theorem isConstantLiteral_enumerator_iff (c : FoldContext) (d : TypeDef) (a : Ancestors)
    (hk : d.kind = .enum) :
    let symbol := c.symbols.enums.find? d.name
    let entries := c.enumerators d
    Fold.outcome (Fold.definition c (.type d)) a = .ok
      (match symbol.filter EnumSymbol.isExternal with
      | some s =>
        if c.options.noExport then [] else [.reexport s.identifier c.options.useTypeImports]
      | none => [.declare (c.entriesDeclaration d entries)]) ∧
    (c.entriesDeclaration d entries).text = c.entriesText d entries ∧
    entries.map Enumerator.value =
      d.body.values.map (fun v => Fold.constantValue symbol v.name) ∧
    ∀ e ∈ entries,
      e.line = e.comment ++ ("  " ++ e.name ++ " = " ++ e.value.literal ++ ",") ∧
      e.arm = e.comment ++ ("  | " ++ e.value.literal) ∧
      (IsConstantLiteral e.value.literal ↔ e.value.IsPlain) := by
  refine ⟨?_, c.text_entriesDeclaration d _, ?_, fun e _ =>
    ⟨e.line_eq, e.arm_eq, e.value.isConstantLiteral_literal_iff⟩⟩
  · rw [Fold.definition, hk]
    exact Fold.outcome_enum c d a
  · rw [enumerators, List.map_map]
    rfl

end FoldContext

namespace Enums

theorem isConstantLiteral_enumerator_iff_palette :
    ∃ symbols, SymbolTables.build palette paletteOptions (some id) = .ok symbols ∧
      let c := FoldContext.ofTables palette paletteOptions symbols id
      Fold.outcome (Fold.definition c (.type color)) {} =
        .ok [.declare (c.entriesDeclaration color (c.enumerators color))] ∧
      ∀ e ∈ c.enumerators color, IsConstantLiteral e.value.literal := by
  refine ⟨_, rfl, ?_⟩
  intro c
  obtain ⟨hfold, -, hvalues, hentries⟩ := c.isConstantLiteral_enumerator_iff color {} rfl
  have hplain : ∀ v ∈ (c.enumerators color).map Enumerator.value, v.IsPlain := by
    rw [hvalues]
    decide
  exact ⟨hfold, fun e he => (hentries e he).2.2.2 (hplain _ (List.mem_map_of_mem he))⟩

/-- The options that give `RED` a text of two lines, and leave `GREEN` the truth value of the
palette. -/
def brokenOptions : Options where
  enumValues := some (.each (.ofList [("Color", .constants (.ofList [("RED", .text "a\nb")]))]))

/-- Of the constants of this enum one is broken over two lines, and one is no literal of the target
language. -/
theorem not_isConstantLiteral_palette :
    ∃ symbols, SymbolTables.build palette brokenOptions (some id) = .ok symbols ∧
      let c := FoldContext.ofTables palette brokenOptions symbols id
      (∃ d : Declaration, Fold.outcome (Fold.definition c (.type color)) {} = .ok [.declare d] ∧
        d.text =
          "export enum Color \x7b\n  RED = 'a\nb',\n  GREEN = False,\n  BLUE = 'BLUE',\n\x7d\n") ∧
      ((c.enumerators color).map fun e => e.value.literal) = ["'a\nb'", "False", "'BLUE'"] ∧
      ¬IsConstantLiteral "'a\nb'" ∧ ¬IsConstantLiteral "False" := by
  refine ⟨_, rfl, ⟨_, Fold.outcome_enum _ color {}, ?_⟩, by decide, ?_, ?_⟩
  · decide
  · exact mt (Constant.isConstantLiteral_literal_iff (.text "a\nb")).1 (by decide)
  · exact Constant.not_isConstantLiteral_bool false

end Enums

end SdlTypes
