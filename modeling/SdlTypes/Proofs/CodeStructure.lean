import SdlTypes.Proofs.ConstantLiterals
import SdlTypes.Proofs.TypeTexts

/-!
# The structure of code

`Text.uncommented` removes comments as a reader of the target language does, who knows where a
literal begins and ends: what looks like a comment inside a literal stays.

`Text.IsCode` says that the brackets of a text are balanced outside of its literals. Code has no
comments, and where it goes on with a line break it stays as it is (`Text.IsCode.keeps`). So a text
whose comments stand above lines of code is left with the lines (`Text.Leaves`).
-/

namespace SdlTypes.Text

/-! ## Literals in code -/

/-- The quotes that literals stand between. -/
def quotes : List Char :=
  ['\'', '"']

/-- Where a reader is: in code, in a literal, or behind a backslash in one. -/
inductive Place where
  | code
  | literal (quote : Char)
  | escape (quote : Char)
  deriving DecidableEq

/-- Where a reader is behind the next character. -/
def Place.next : Place → Char → Place
  | code, c => if c ∈ quotes then literal c else code
  | literal quote, c => if c = '\\' then escape quote else if c = quote then code else literal quote
  | escape quote, _ => literal quote

/-- Some characters without the comments in their code. -/
def uncomment (place : Place) (s : List Char) : List Char :=
  match s with
  | [] => []
  | c :: rest =>
    match _found : if place = .code then afterComment? (c :: rest) else none with
    | some behind => uncomment .code behind
    | none => c :: uncomment (place.next c) rest
termination_by s.length
decreasing_by
  · split_ifs at _found
    exact length_afterComment?_lt _found
  · exact Nat.lt_succ_self _

/-- A text without the comments in its code. -/
def uncommented (s : String) : String :=
  String.ofList (uncomment .code s.toList)

theorem uncomment_of_some {s behind : List Char} (h : afterComment? s = some behind) :
    uncomment .code s = uncomment .code behind := by
  cases s with
  | nil => cases h
  | cons c s =>
    rw [uncomment]
    split
    · next heq =>
      rw [if_pos rfl, h] at heq
      cases heq
      rfl
    · next heq =>
      rw [if_pos rfl, h] at heq
      cases heq

theorem uncomment_cons {place : Place} {c : Char} {s : List Char}
    (h : (if place = .code then afterComment? (c :: s) else none) = none) :
    uncomment place (c :: s) = c :: uncomment (place.next c) s := by
  rw [uncomment]
  split
  · next heq =>
    rw [h] at heq
    cases heq
  · rfl

theorem uncomment_of_none {c : Char} {s : List Char} (h : afterComment? (c :: s) = none) :
    uncomment .code (c :: s) = c :: uncomment (Place.code.next c) s :=
  uncomment_cons ((if_pos rfl).trans h)

theorem uncomment_of_ne {place : Place} (h : place ≠ .code) (c : Char) (s : List Char) :
    uncomment place (c :: s) = c :: uncomment (place.next c) s :=
  uncomment_cons (if_neg h)

/-- Comments begin with a slash, and with blanks before it. -/
theorem afterComment?_cons {c : Char} (hslash : c ≠ '/') {s : List Char}
    (h : c = ' ' → afterComment? s = none) : afterComment? (c :: s) = none := by
  by_cases hc : c = ' '
  · rw [← h hc, afterComment?, afterComment?, List.dropWhile_cons_of_pos (by simpa using hc)]
  · rw [afterComment?, List.dropWhile_cons_of_neg (by simpa using hc)]
    split
    · next heq => exact absurd (List.cons.inj heq).1 hslash
    · rfl

theorem uncomment_literal {quote : Char} (hquote : quote ∈ quotes) {body : List Char}
    (h : LiteralBody quote body) (rest : List Char) :
    uncomment (.literal quote) (body ++ quote :: rest) = body ++ quote :: uncomment .code rest := by
  have hslash : quote ≠ '\\' := by
    rintro rfl
    exact absurd hquote (by decide)
  have hplace : Place.literal quote ≠ .code := nofun
  have hescape : Place.escape quote ≠ .code := nofun
  induction h with
  | nil =>
    have hnext : (Place.literal quote).next quote = .code := by
      rw [Place.next, if_neg hslash, if_pos rfl]
    rw [List.nil_append, uncomment_of_ne hplace, hnext]
    rfl
  | @plain c body hne hb _ ih =>
    have hnext : (Place.literal quote).next c = .literal quote := by
      rw [Place.next, if_neg hb, if_neg hne]
    rw [List.cons_append, uncomment_of_ne hplace, hnext, ih]
    rfl
  | @escaped c body _ ih =>
    rw [List.cons_append, List.cons_append, uncomment_of_ne hplace]
    change '\\' :: uncomment (.escape quote) _ = _
    rw [uncomment_of_ne hescape]
    change '\\' :: c :: uncomment (.literal quote) _ = _
    rw [ih]
    rfl

/-! ## Balanced code -/

/-- The brackets that come in pairs. -/
def brackets : List (Char × Char) :=
  [('\x7b', '\x7d'), ('<', '>'), ('[', ']')]

/-- The characters that have a meaning of their own. -/
def codeMarks : List Char :=
  ['\'', '"', '`', '/', '\x7b', '\x7d', '<', '>', '[', ']']

/-- Code without comments whose brackets are balanced, outside of literals. -/
inductive IsCode : List Char → Prop
  | nil : IsCode []
  | plain {c : Char} {rest : List Char} (hc : c ∉ codeMarks) (hrest : IsCode rest) :
    IsCode (c :: rest)
  | literal {quote : Char} {body rest : List Char} (hquote : quote ∈ quotes)
    (hbody : LiteralBody quote body) (hrest : IsCode rest) :
    IsCode (quote :: (body ++ quote :: rest))
  | group {opening closing : Char} {inside rest : List Char}
    (hpair : (opening, closing) ∈ brackets) (hinside : IsCode inside) (hrest : IsCode rest) :
    IsCode (opening :: (inside ++ closing :: rest))

namespace IsCode

theorem append {s t : List Char} (hs : IsCode s) (ht : IsCode t) : IsCode (s ++ t) := by
  induction hs with
  | nil => exact ht
  | plain hc _ ih => exact .plain hc ih
  | literal hquote hbody _ ih =>
    rw [List.cons_append, List.append_assoc, List.cons_append]
    exact .literal hquote hbody ih
  | group hpair hinside _ _ ih =>
    rw [List.cons_append, List.append_assoc, List.cons_append]
    exact .group hpair hinside ih

theorem of_plain {s : List Char} (h : ∀ c ∈ s, c ∉ codeMarks) : IsCode s := by
  induction s with
  | nil => exact .nil
  | cons c s ih =>
    rw [List.forall_mem_cons] at h
    exact .plain h.1 (ih h.2)

theorem enclose {opening closing : Char} (hpair : (opening, closing) ∈ brackets) {s : List Char}
    (h : IsCode s) : IsCode (opening :: (s ++ [closing])) :=
  .group hpair h .nil

theorem quote (quote : Char) (hquote : quote ∈ quotes) {body : List Char}
    (h : LiteralBody quote body) : IsCode (quote :: (body ++ [quote])) :=
  .literal hquote h .nil

theorem join {separator : String} (hseparator : IsCode separator.toList) {ss : List String}
    (h : ∀ s ∈ ss, IsCode s.toList) : IsCode (Text.join separator ss).toList := by
  induction ss with
  | nil => exact .nil
  | cons s rest ih =>
    rw [List.forall_mem_cons] at h
    cases rest with
    | nil => exact h.1
    | cons t rest =>
      rw [toList_join_cons_cons]
      exact (h.1.append hseparator).append (ih h.2)

theorem of_areIdentifierParts {s : List Char} (h : AreIdentifierParts s) : IsCode s := by
  have hmarks : ∀ c ∈ codeMarks, isIdentifierPart c = false := by decide
  exact of_plain fun c hc hmark => absurd (h c hc) (by rw [hmarks c hmark]; decide)

end IsCode

/-! ## Removing comments from code -/

/-- A text that begins with code is reduced to some code wherever it stands in front of something
other than a comment. -/
def Reduces (text code : String) : Prop :=
  ∀ rest, afterComment? rest = none →
    afterComment? (text.toList ++ rest) = none ∧
      uncomment .code (text.toList ++ rest) = code.toList ++ uncomment .code rest

/-- The same of a text that may begin with a comment. -/
def Leaves (text code : String) : Prop :=
  ∀ rest, afterComment? rest = none →
    uncomment .code (text.toList ++ rest) = code.toList ++ uncomment .code rest

/-- Characters that stay in front of something other than a comment. -/
def Keeps (s : List Char) : Prop :=
  ∀ rest, afterComment? rest = none →
    afterComment? (s ++ rest) = none ∧ uncomment .code (s ++ rest) = s ++ uncomment .code rest

namespace Keeps

theorem append {s t : List Char} (hs : Keeps s) (ht : Keeps t) : Keeps (s ++ t) := by
  intro rest hrest
  obtain ⟨hnone, heq⟩ := ht rest hrest
  obtain ⟨hnone', heq'⟩ := hs _ hnone
  rw [List.append_assoc, List.append_assoc, heq', heq]
  exact ⟨hnone', rfl⟩

/-- A character outside of comments and literals. -/
theorem cons {c : Char} (hslash : c ≠ '/') (hquote : c ∉ quotes) {s : List Char} (hs : Keeps s) :
    Keeps (c :: s) := by
  intro rest hrest
  obtain ⟨hnone, heq⟩ := hs rest hrest
  have hnone' : afterComment? (c :: (s ++ rest)) = none := afterComment?_cons hslash fun _ => hnone
  refine ⟨hnone', ?_⟩
  rw [List.cons_append, uncomment_of_none hnone', Place.next, if_neg hquote, heq]
  rfl

/-- A literal. -/
theorem literal {quote : Char} (hquote : quote ∈ quotes) {body s : List Char}
    (hbody : LiteralBody quote body) (hs : Keeps s) : Keeps (quote :: (body ++ quote :: s)) := by
  intro rest hrest
  have hmarks : ∀ quote ∈ quotes, quote ≠ '/' ∧ quote ≠ ' ' := by decide
  have hnone (s : List Char) : afterComment? (quote :: s) = none :=
    afterComment?_cons (hmarks quote hquote).1 fun heq => absurd heq (hmarks quote hquote).2
  refine ⟨hnone _, ?_⟩
  rw [List.cons_append, uncomment_of_none (hnone _), Place.next, if_pos hquote,
    List.append_assoc, List.cons_append, uncomment_literal hquote hbody, (hs rest hrest).2]
  simp only [List.cons_append, List.append_assoc]

end Keeps

/-- Code stays. -/
theorem IsCode.keeps {s : List Char} (h : IsCode s) : Keeps s := by
  induction h with
  | nil => exact fun _ hrest => ⟨hrest, rfl⟩
  | @plain c rest hc _ ih =>
    have hmarks : '/' ∈ codeMarks ∧ ∀ c ∈ quotes, c ∈ codeMarks := by decide
    refine .cons ?_ (fun hquote => hc (hmarks.2 c hquote)) ih
    rintro rfl
    exact hc hmarks.1
  | literal hquote hbody _ ih => exact .literal hquote hbody ih
  | group hpair _ _ ihinside ihrest =>
    have hplain : ∀ p ∈ brackets, (p.1 ≠ '/' ∧ p.1 ∉ quotes) ∧ p.2 ≠ '/' ∧ p.2 ∉ quotes := by
      decide
    obtain ⟨⟨hopen, hopen'⟩, hclose, hclose'⟩ := hplain _ hpair
    exact .cons hopen hopen' (ihinside.append (.cons hclose hclose' ihrest))

namespace Reduces

variable {s t u v : String}

theorem of_isCode (h : IsCode s.toList) : Reduces s s := h.keeps

/-- Characters outside of comments and literals stay, balanced or not. -/
theorem of_unquoted (h : ∀ c ∈ s.toList, c ≠ '/' ∧ c ∉ quotes) : Reduces s s := by
  have hkeeps (s : List Char) (h : ∀ c ∈ s, c ≠ '/' ∧ c ∉ quotes) : Keeps s := by
    induction s with
    | nil => exact fun _ hrest => ⟨hrest, rfl⟩
    | cons c s ih =>
      rw [List.forall_mem_cons] at h
      exact .cons h.1.1 h.1.2 (ih h.2)
  exact hkeeps s.toList h

theorem append (h : Reduces s t) (h' : Reduces u v) : Reduces (s ++ u) (t ++ v) := by
  intro rest hrest
  obtain ⟨hnone, heq⟩ := h' rest hrest
  obtain ⟨hnone', heq'⟩ := h _ hnone
  rw [String.toList_append, String.toList_append, List.append_assoc, List.append_assoc, heq', heq]
  exact ⟨hnone', rfl⟩

theorem leaves (h : Reduces s t) : Leaves s t := fun rest hrest => (h rest hrest).2

end Reduces

/-- A line break begins no comment. -/
theorem uncomment_newline (rest : List Char) :
    uncomment .code ('\n' :: rest) = '\n' :: uncomment .code rest :=
  uncomment_of_none rfl

namespace Leaves

variable {s t u v : String}

/-- Code may go on behind a text. -/
theorem append (h : Leaves s t) (h' : Reduces u v) : Leaves (s ++ u) (t ++ v) := by
  intro rest hrest
  obtain ⟨hnone, heq⟩ := h' rest hrest
  rw [String.toList_append, List.append_assoc, h _ hnone, heq, String.toList_append,
    List.append_assoc]

/-- A comment above a text is removed. -/
theorem comment (h : Leaves s t) {comment : String} (hc : IsComment comment) :
    Leaves (comment ++ s) t := by
  obtain ⟨level, text, rfl⟩ := hc
  intro rest hrest
  rw [String.toList_append, List.append_assoc]
  by_cases hempty : text = ""
  · rw [hempty]
    exact h rest hrest
  · rw [uncomment_of_some (afterComment?_render level hempty _), h rest hrest]

/-- Behind a line break there may be a comment. -/
theorem newline (h : Leaves s t) : Reduces ("\n" ++ s) ("\n" ++ t) := by
  intro rest hrest
  rw [String.toList_append, String.toList_append]
  exact ⟨rfl, (uncomment_newline _).trans (congrArg _ (h rest hrest))⟩

theorem join {ss ts : List String} (h : List.Forall₂ Leaves ss ts) :
    Leaves (Text.join "\n" ss) (Text.join "\n" ts) := by
  induction h with
  | nil => exact fun rest _ => rfl
  | @cons s t ss ts hs hrest ih =>
    cases hrest with
    | nil => exact hs
    | cons =>
      rw [join_cons_cons, join_cons_cons, String.append_assoc, String.append_assoc]
      exact hs.append ih.newline

/-- A line without its comments. -/
theorem uncommented_line (h : Leaves s t) (rest : String) :
    uncommented (s ++ "\n" ++ rest) = t ++ "\n" ++ uncommented rest := by
  have hbreak := h ('\n' :: rest.toList) rfl
  rw [uncomment_newline] at hbreak
  apply String.toList_injective
  simpa [uncommented] using hbreak

end Leaves

/-- Whole lines that are left with whole lines. -/
def LeavesLines (text code : String) : Prop :=
  ∃ s t, text = s ++ "\n" ∧ code = t ++ "\n" ∧ Leaves s t

theorem LeavesLines.uncommented_append {text code : String} (h : LeavesLines text code)
    (rest : String) : uncommented (text ++ rest) = code ++ uncommented rest := by
  obtain ⟨s, t, rfl, rfl, h⟩ := h
  exact h.uncommented_line rest

theorem uncommented_empty : uncommented "" = "" := by
  have hnil : uncomment .code [] = [] := by rw [uncomment]
  exact congrArg String.ofList hnil

theorem LeavesLines.uncommented {text code : String} (h : LeavesLines text code) :
    uncommented text = code := by
  have := h.uncommented_append ""
  rwa [uncommented_empty, String.append_empty, String.append_empty] at this

/-- Lines with line breaks between them, without their comments. -/
theorem uncommented_join {texts codes : List String} (h : List.Forall₂ LeavesLines texts codes) :
    uncommented (join "\n" texts) = join "\n" codes := by
  have hbreak (rest : String) : uncommented ("\n" ++ rest) = "\n" ++ uncommented rest := by
    apply String.toList_injective
    simpa [uncommented] using uncomment_newline rest.toList
  induction h with
  | nil => exact uncommented_empty
  | @cons s t ss ts hs hrest ih =>
    cases hrest with
    | nil => exact hs.uncommented
    | cons =>
      rw [join_cons_cons, join_cons_cons, String.append_assoc, hs.uncommented_append, hbreak, ih,
        String.append_assoc]

end SdlTypes.Text
