import SdlTypes.Sdl.StringLiteral

/-!
# Tokens

`Token.scan?` takes a text apart into tokens. Blanks, line ends, commas, byte order marks and
comments separate tokens and are dropped. A text that holds anything else than tokens and
separators has no tokens at all.

Each token takes something from the text, of which `length_next?` gives the account.
-/

namespace SdlTypes.Sdl

/-- A token of a document. Both forms of strings give their value. -/
inductive Token where
  | punct (mark : Char)
  | spread
  | name (text : String)
  | int (digits : String)
  | float (digits : String)
  | string (text : String)
  deriving DecidableEq

namespace Token

/-- Whether a name may begin with the character. -/
def isNameStart (c : Char) : Bool :=
  c.isAlpha || c = '_'

/-- Whether a name may go on with the character. -/
def isNamePart (c : Char) : Bool :=
  c.isAlphanum || c = '_'

/-- The tokens of one character. -/
def isMark (c : Char) : Bool :=
  c ∈ ['!', '$', '&', '(', ')', ':', '=', '@', '[', ']', '{', '|', '}']

/-- The characters between tokens. -/
def isSeparator (c : Char) : Bool :=
  c ∈ [' ', '\t', '\n', '\r', ',', '\uFEFF']

/-- The characters from the next token on; the flag tells whether a comment has begun. -/
def skip (comment : Bool) : List Char → List Char
  | [] => []
  | c :: rest =>
    if comment then skip (c ≠ '\n' ∧ c ≠ '\r') rest
    else if c = '#' then skip true rest
    else if isSeparator c then skip false rest
    else c :: rest

theorem length_skip_le (comment : Bool) (s : List Char) : (skip comment s).length ≤ s.length := by
  fun_induction skip comment s <;> grind

/-- At least one digit, and what follows the digits. -/
def digits? (s : List Char) : Option (List Char × List Char) :=
  match s.takeWhile Char.isDigit with
  | [] => none
  | ds => some (ds, s.dropWhile Char.isDigit)

theorem length_digits? {s ds left : List Char} (h : digits? s = some (ds, left)) :
    left.length < s.length := by
  unfold digits? at h
  split at h
  · simp at h
  · next ds' hne =>
    simp only [Option.some.injEq, Prod.mk.injEq] at h
    obtain ⟨-, rfl⟩ := h
    have := congrArg List.length (List.takeWhile_append_dropWhile (p := Char.isDigit) (l := s))
    have : 0 < (s.takeWhile Char.isDigit).length := by
      rw [List.length_pos_iff]; intro h0; exact hne h0
    simp only [List.length_append] at *
    omega

/-- The digits before the point: a zero stands alone. -/
def whole? (s : List Char) : Option (List Char × List Char) :=
  match s with
  | '0' :: rest =>
    match rest with
    | c :: _ => if c.isDigit then none else some (['0'], rest)
    | [] => some (['0'], [])
  | _ => digits? s

theorem length_whole? {s ds left : List Char} (h : whole? s = some (ds, left)) :
    left.length < s.length := by
  unfold whole? at h
  split at h <;> grind [→ length_digits?, Option.map_eq_some_iff]

/-- The fraction of a number, if it has one. -/
def fraction? (s : List Char) : Option (List Char × List Char) :=
  match s with
  | '.' :: rest => (digits? rest).map fun (ds, left) => ('.' :: ds, left)
  | _ => some ([], s)

theorem length_fraction?_le {s ds left : List Char} (h : fraction? s = some (ds, left)) :
    left.length ≤ s.length := by
  unfold fraction? at h
  split at h <;> grind [→ length_digits?, Option.map_eq_some_iff]

/-- The exponent of a number, if it has one. -/
def exponent? (s : List Char) : Option (List Char × List Char) :=
  match s with
  | e :: rest =>
    if e = 'e' ∨ e = 'E' then
      match rest with
      | sign :: unsigned =>
        if sign = '+' ∨ sign = '-' then
          (digits? unsigned).map fun (ds, left) => (e :: sign :: ds, left)
        else (digits? rest).map fun (ds, left) => (e :: ds, left)
      | [] => none
    else some ([], s)
  | [] => some ([], [])

theorem length_exponent?_le {s ds left : List Char} (h : exponent? s = some (ds, left)) :
    left.length ≤ s.length := by
  unfold exponent? at h
  grind [→ length_digits?, Option.map_eq_some_iff]

/-- Reads a number; neither a point nor a name may follow it directly. -/
def number? (s : List Char) : Option (Token × List Char) := do
  let (sign, unsigned) := match s with
    | '-' :: rest => (['-'], rest)
    | _ => ([], s)
  let (whole, left) ← whole? unsigned
  let (fraction, left) ← fraction? left
  let (exponent, left) ← exponent? left
  let touching := match left with
    | c :: _ => c = '.' || isNameStart c
    | [] => false
  if touching then none
  else
    let written := String.ofList (sign ++ whole ++ fraction ++ exponent)
    return (if fraction.isEmpty && exponent.isEmpty then .int written else .float written, left)

theorem length_number? {s left : List Char} {token : Token} (h : number? s = some (token, left)) :
    left.length < s.length := by
  simp only [number?, Option.bind_eq_bind, Option.bind_eq_some_iff, Prod.exists] at h
  obtain ⟨whole, left₁, h1, fraction, left₂, h2, exponent, left₃, h3, h4⟩ := h
  have := length_whole? h1
  have := length_fraction?_le h2
  have := length_exponent?_le h3
  grind

/-- Reads the token at the front of the characters. -/
def next? (s : List Char) : Option (Token × List Char) :=
  match s with
  | [] => none
  | '.' :: '.' :: '.' :: rest => some (.spread, rest)
  | '"' :: '"' :: '"' :: rest =>
    (StringLiteral.readBlock rest).map fun (raw, left) =>
      (.string (String.ofList (StringLiteral.dedent raw)), left)
  | '"' :: rest =>
    (StringLiteral.readQuoted rest).map fun (t, left) => (.string (String.ofList t), left)
  | c :: rest =>
    if isMark c then some (.punct c, rest)
    else if isNameStart c then
      some (.name (String.ofList (c :: rest.takeWhile isNamePart)), rest.dropWhile isNamePart)
    else if c.isDigit || c = '-' then number? s
    else none

theorem length_next? {s left : List Char} {token : Token} (h : next? s = some (token, left)) :
    left.length < s.length := by
  have hp (l : List Char) : (l.dropWhile isNamePart).length ≤ l.length :=
    (List.dropWhile_sublist isNamePart).length_le
  unfold next? at h
  grind [Option.map_eq_some_iff, → length_number?, → StringLiteral.length_readBlock,
    → StringLiteral.length_readQuoted]

/-- The tokens of the characters from a token on. -/
def tokens? (s : List Char) : Option (List Token) :=
  if s.isEmpty then some []
  else
    match _found : next? s with
    | none => none
    | some (token, rest) => (tokens? (skip false rest)).map (token :: ·)
termination_by s.length
decreasing_by exact Nat.lt_of_le_of_lt (length_skip_le false rest) (length_next? _found)

/-- The tokens of a text. -/
def scan? (text : String) : Option (List Token) :=
  tokens? (skip false text.toList)

end Token

end SdlTypes.Sdl
