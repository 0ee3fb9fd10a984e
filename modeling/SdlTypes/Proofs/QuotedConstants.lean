import SdlTypes.Proofs.ConstantLiterals

/-!
# Reading quoted constants

`Text.readLiteral` reads a text from its opening quote: a backslash makes the next character stand
for itself, and the first quote without one is the end. It undoes the quoting and leaves just what
follows (`Text.readLiteral_quoted`), whatever quotes and backslashes the text holds and whatever
follows. So quoted texts can be told apart, also with something behind them
(`Text.quoted_append_inj`).

In the declaration of an enum `FoldContext.beforeConstant` is all in front of a constant and
`FoldContext.behindConstant` all behind it, and neither of them depends on the constant
(`FoldContext.text_entries`). `FoldContext.readBehind_constants` says that every text is read back
at its place and leaves what is behind, and that all texts together can be had from the
declaration.
-/

namespace SdlTypes

open Sdl

namespace Text

/-! ## Reading -/

theorem readQuoted_plain {c : Char} (hquote : c ≠ '\'') (hslash : c ≠ '\\') (rest : List Char) :
    readQuoted (c :: rest) = (readQuoted rest).map fun (s, left) => (c :: s, left) :=
  readQuoted.eq_5 c rest hquote (fun h _ => hslash h) fun _ _ h _ => hslash h

/-- An escaped text is read up to the quote behind it. -/
theorem readQuoted_escape (s rest : List Char) :
    readQuoted (escape '\'' (escape '\\' s) ++ '\'' :: rest) = some (s, rest) := by
  rw [escape_escape]
  induction s with
  | nil => rfl
  | cons c s ih =>
    rw [List.flatMap_cons, List.append_assoc]
    split_ifs with hc
    · -- the backslash and the character behind it are read together, so that this cannot be the end
      rw [List.cons_append, List.singleton_append, readQuoted, ih]
      rfl
    · rw [not_or] at hc
      rw [List.singleton_append, readQuoted_plain hc.2 hc.1, ih]
      rfl

/-- Reads a text from its opening quote, and gives what is left behind it as well. -/
def readLiteral (s : String) : Option (String × String) :=
  match s.toList with
  | '\'' :: inside =>
    (readQuoted inside).map fun (text, left) => (String.ofList text, String.ofList left)
  | _ => none

/-- Reading undoes the quoting and leaves what follows. -/
theorem readLiteral_quoted (s rest : String) : readLiteral (quoted s ++ rest) = some (s, rest) := by
  have htoList : (quoted s ++ rest).toList =
      '\'' :: (escape '\'' (escape '\\' s.toList) ++ '\'' :: rest.toList) := by
    simp [quoted]
  have hread : readLiteral (quoted s ++ rest) =
      (readQuoted (escape '\'' (escape '\\' s.toList) ++ '\'' :: rest.toList)).map
        fun (text, left) => (String.ofList text, String.ofList left) := by
    rw [readLiteral, htoList]
    rfl
  rw [hread, readQuoted_escape, Option.map_some]
  dsimp only
  rw [String.ofList_toList, String.ofList_toList]

/-- The quotes and the backslash of a text do not end it. -/
example : readLiteral "'it\\'s \\\\', 'x'" = some ("it's \\", ", 'x'") := by decide

/-- No quoted text is the beginning of another one, whatever follows. -/
theorem quoted_append_inj {s t rest rest' : String} :
    quoted s ++ rest = quoted t ++ rest' ↔ s = t ∧ rest = rest' := by
  constructor
  · intro h
    have hread := congrArg readLiteral h
    rw [readLiteral_quoted, readLiteral_quoted] at hread
    exact Prod.mk.inj (Option.some.inj hread)
  · rintro ⟨rfl, rfl⟩
    rfl

/-- Reads a text that stands behind a known front. -/
def readBehind (front s : String) : Option (String × String) :=
  if startsWith s front then readLiteral (String.ofList (s.toList.drop front.toList.length))
  else none

theorem readBehind_append (front s : String) : readBehind front (front ++ s) = readLiteral s := by
  rw [readBehind, if_pos (startsWith_append front s), String.toList_append, List.drop_left,
    String.ofList_toList]

end Text

open Text

/-! ## Entries -/

namespace Enumerator

/-- An entry up to its constant, as an arm of a union or as a line of an enum. -/
def front (asArm : Bool) (comment name : String) : String :=
  comment ++ ("  " ++ if asArm then "| " else name ++ " = ")

/-- What ends an entry behind its constant. -/
def ending (asArm : Bool) : String :=
  if asArm then "" else ","

/-- The entry in either form. -/
def entry (asArm : Bool) (e : Enumerator) : String :=
  if asArm then e.arm else e.line

theorem entry_eq (asArm : Bool) (e : Enumerator) :
    e.entry asArm = front asArm e.comment e.name ++ (e.value.literal ++ ending asArm) := by
  cases asArm with
  | true =>
    have hbar : "  | " = "  " ++ "| " := rfl
    rw [entry, if_pos rfl, arm_eq, hbar, front, ending, if_pos rfl, if_pos rfl]
    simp only [String.append_assoc, String.append_empty]
  | false =>
    rw [entry, if_neg Bool.false_ne_true, line_eq, front, ending, if_neg Bool.false_ne_true,
      if_neg Bool.false_ne_true]
    simp only [String.append_assoc]

theorem entry_append (asArm : Bool) (e : Enumerator) (rest : String) :
    e.entry asArm ++ rest =
      front asArm e.comment e.name ++ (e.value.literal ++ (ending asArm ++ rest)) := by
  rw [entry_eq]
  simp only [String.append_assoc]

/-- Entries as they are written, each behind a line break. -/
def rows (asArm : Bool) : List Enumerator → String
  | [] => ""
  | e :: entries => "\n" ++ (e.entry asArm ++ rows asArm entries)

theorem rows_append (asArm : Bool) (before after : List Enumerator) :
    rows asArm (before ++ after) = rows asArm before ++ rows asArm after := by
  induction before with
  | nil => rw [List.nil_append, rows, String.empty_append]
  | cons e before ih =>
    rw [List.cons_append, rows, ih, rows]
    simp only [String.append_assoc]

/-- Joined entries lack the line break in front. -/
theorem rows_eq_join (asArm : Bool) (e : Enumerator) (entries : List Enumerator) :
    rows asArm (e :: entries) = "\n" ++ join "\n" ((e :: entries).map (entry asArm)) := by
  induction entries generalizing e with
  | nil => rw [rows, rows, List.map_singleton, join_singleton, String.append_empty]
  | cons next entries ih =>
    rw [rows, ih next, List.map_cons (l := next :: entries), List.map_cons, join_cons_cons,
      String.append_assoc]

/-- Entries that differ in nothing but a text. -/
inductive UpToText : Enumerator → Enumerator → Prop
  | same (e : Enumerator) : UpToText e e
  | text (comment name s t : String) : UpToText ⟨comment, name, .text s⟩ ⟨comment, name, .text t⟩

/-- The text of an entry and what follows the entry are those that are read. -/
theorem UpToText.eq_of_entry_append {e e' : Enumerator} (h : UpToText e e') {asArm : Bool}
    {rest rest' : String} (heq : e.entry asArm ++ rest = e'.entry asArm ++ rest') :
    e = e' ∧ rest = rest' := by
  cases h with
  | same => exact ⟨rfl, (String.append_right_inj _).1 heq⟩
  | text comment name s t =>
    rw [entry_append, entry_append, String.append_right_inj] at heq
    obtain ⟨rfl, hrest⟩ := quoted_append_inj.1 heq
    exact ⟨rfl, (String.append_right_inj _).1 hrest⟩

/-- All texts of entries can be had from what is written: one is read after another, and each
leaves just the entries behind it. -/
theorem eq_of_rows_append {entries entries' : List Enumerator}
    (h : List.Forall₂ UpToText entries entries') {asArm : Bool} {rest : String}
    (heq : rows asArm entries ++ rest = rows asArm entries' ++ rest) : entries = entries' := by
  induction h with
  | nil => rfl
  | cons he _ ih =>
    simp only [rows, String.append_assoc, String.append_right_inj] at heq
    obtain ⟨rfl, hrest⟩ := he.eq_of_entry_append heq
    rw [ih hrest]

end Enumerator

/-! ## Declarations -/

namespace FoldContext

variable (c : FoldContext) (d : TypeDef)

/-- The declaration of an enum up to its entries. -/
def entriesHead : String :=
  let name := c.resolver.enumName d.name
  let label := if name = "" then "" else name ++ " "
  Comment.render 0 (d.description.getD "") ++ (if c.options.noExport then "" else "export ") ++
    if c.options.enumsAsTypes then "type " ++ label ++ "=" else "enum " ++ label ++ "\x7b"

/-- What ends the declaration of an enum behind its entries. -/
def entriesEnd : String :=
  if c.options.enumsAsTypes then ";\n" else "\n\x7d\n"

/-- All that stands in front of the constant of an entry with a comment and a name, below other
entries. -/
def beforeConstant (before : List Enumerator) (comment name : String) : String :=
  c.entriesHead d ++ (Enumerator.rows c.options.enumsAsTypes before ++
    ("\n" ++ Enumerator.front c.options.enumsAsTypes comment name))

/-- All that stands behind the constant of an entry above other entries. -/
def behindConstant (after : List Enumerator) : String :=
  Enumerator.ending c.options.enumsAsTypes ++
    (Enumerator.rows c.options.enumsAsTypes after ++ c.entriesEnd)

theorem text_of_entries {entries : List Enumerator} (hne : entries ≠ []) :
    (c.entriesDeclaration d entries).text =
      c.entriesHead d ++ (Enumerator.rows c.options.enumsAsTypes entries ++ c.entriesEnd) := by
  obtain ⟨e, entries, rfl⟩ := List.exists_cons_of_ne_nil hne
  have hequals : "=\n" = "=" ++ "\n" := rfl
  have hopen : "\x7b\n" = "\x7b" ++ "\n" := rfl
  have hlines : join "\n" ((e :: entries).map Enumerator.line) ≠ "" :=
    join_cons_ne_empty e.line_ne_empty _
  rw [text_entriesDeclaration, entriesText, entriesHead, entriesEnd, Enumerator.rows_eq_join,
    if_neg hlines, hequals, hopen]
  by_cases hasType : c.options.enumsAsTypes = true
  · rw [hasType, if_pos rfl, if_pos rfl, if_pos rfl]
    simp only [String.append_assoc]
    rfl
  · rw [eq_false_of_ne_true hasType, if_neg Bool.false_ne_true, if_neg Bool.false_ne_true,
      if_neg Bool.false_ne_true]
    simp only [String.append_assoc]
    rfl

/-- A constant stands between what is in front of it and what is behind it. -/
theorem text_entries (before : List Enumerator) (e : Enumerator) (after : List Enumerator) :
    (c.entriesDeclaration d (before ++ e :: after)).text =
      c.beforeConstant d before e.comment e.name ++ (e.value.literal ++ c.behindConstant after) := by
  rw [c.text_of_entries d (by simp), Enumerator.rows_append, Enumerator.rows, beforeConstant,
    behindConstant]
  simp only [String.append_assoc, Enumerator.entry_append]

/-- Entries that are declared with the same text are the same, if they agree but for texts. -/
theorem eq_of_text_eq {entries entries' : List Enumerator}
    (h : List.Forall₂ Enumerator.UpToText entries entries')
    (heq : (c.entriesDeclaration d entries).text = (c.entriesDeclaration d entries').text) :
    entries = entries' := by
  cases h with
  | nil => rfl
  | cons he hes =>
    rw [c.text_of_entries d (List.cons_ne_nil _ _), c.text_of_entries d (List.cons_ne_nil _ _),
      String.append_right_inj] at heq
    exact Enumerator.eq_of_rows_append (.cons he hes) heq

/-- Quoting is undone by reading: a quoted text is read back from its opening quote and what
follows it is left, so no two texts are quoted alike. In an enum, as in the union of its constants,
every text is read back at its place, whatever it holds, and leaves all that is behind it; and the
texts of all constants can be had from the declaration. -/
theorem readBehind_constants :
    (∀ s rest : String, readLiteral (quoted s ++ rest) = some (s, rest)) ∧
    (∀ s t rest rest' : String, quoted s ++ rest = quoted t ++ rest' → s = t ∧ rest = rest') ∧
    ∀ (c : FoldContext) (d : TypeDef) (a : Ancestors), d.kind = .enum →
      (c.symbols.enums.find? d.name).filter EnumSymbol.isExternal = none →
      let declared := c.entriesDeclaration d (c.enumerators d)
      Fold.outcome (Fold.definition c (.type d)) a = .ok [.declare declared] ∧
      (∀ before e after s, c.enumerators d = before ++ e :: after → e.value = .text s →
        let front := c.beforeConstant d before e.comment e.name
        declared.text = front ++ (quoted s ++ c.behindConstant after) ∧
          readBehind front declared.text = some (s, c.behindConstant after)) ∧
      ∀ entries, List.Forall₂ Enumerator.UpToText (c.enumerators d) entries →
        (c.entriesDeclaration d entries).text = declared.text → entries = c.enumerators d := by
  refine ⟨readLiteral_quoted, fun s t rest rest' => quoted_append_inj.1, ?_⟩
  intro c d a hk hlocal declared
  refine ⟨?_, ?_, ?_⟩
  · rw [Fold.definition, hk]
    refine (Fold.outcome_enum c d a).trans ?_
    rw [enumStatements, hlocal]
    rfl
  · intro before e after s hsplit hs front
    have htext : declared.text = front ++ (e.value.literal ++ c.behindConstant after) := by
      rw [← c.text_entries d before e after, ← hsplit]
    rw [hs] at htext
    rw [htext, readBehind_append]
    exact ⟨rfl, readLiteral_quoted s _⟩
  · intro entries h heq
    exact (c.eq_of_text_eq d h heq.symm).symm

end FoldContext

namespace Enums

/-- The options that give `RED` a text with a quote between backslashes, and `GREEN` one that
looks like the end of a constant. -/
def quotedOptions : Options where
  enumValues := some (.each (.ofList [("Color", .constants (.ofList
    [("RED", .text "\\'\\"), ("GREEN", .text "', GREEN = '")]))]))

theorem readBehind_constants_palette :
    ∃ symbols, SymbolTables.build palette quotedOptions (some id) = .ok symbols ∧
      let c := FoldContext.ofTables palette quotedOptions symbols id
      let declared := c.entriesDeclaration color (c.enumerators color)
      Fold.outcome (Fold.definition c (.type color)) {} = .ok [.declare declared] ∧
      readBehind "export enum Color \x7b\n  RED = " declared.text =
        some ("\\'\\", ",\n  GREEN = '\\', GREEN = \\'',\n  BLUE = 'BLUE',\n\x7d\n") ∧
      ∀ s t, (c.entriesDeclaration color
          [⟨"", "RED", .text s⟩, ⟨"", "GREEN", .text t⟩, ⟨"", "BLUE", .text "BLUE"⟩]).text =
          declared.text → s = "\\'\\" ∧ t = "', GREEN = '" := by
  refine ⟨_, rfl, ?_⟩
  intro c declared
  obtain ⟨hfold, hread, hsame⟩ := FoldContext.readBehind_constants.2.2 c color {} rfl (by decide)
  refine ⟨hfold, (hread [] _ _ _ rfl rfl).2.trans (by decide), fun s t h => ?_⟩
  have heq := hsame _ (.cons (.text _ _ _ s) (.cons (.text _ _ _ t) (.cons (.same _) .nil))) h
  injection heq with hred heq
  injection heq with hgreen
  injection hred with _ _ hs
  injection hgreen with _ _ ht
  exact ⟨Constant.text.inj hs, Constant.text.inj ht⟩

end Enums

end SdlTypes
