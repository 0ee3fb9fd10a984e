import SdlTypes.Json
import SdlTypes.OrderedMap
import SdlTypes.Text.Hexadecimal

/-!
# Reading JSON

`Json.read` reads a text that holds one JSON value and nothing else. The reader is strict:
control characters inside strings, numbers with leading zeros, and anything before or after the
value are refused. Beyond the standard it knows the names `NaN`, `Infinity` and `-Infinity`.
Whole numbers may have any size up to `digitLimit`, arrays and objects may be nested up to
`nestingLimit`; what goes beyond is an error of its own.

In an object with a repeated name the last value counts, at the place of the first.

Every reader takes the characters that are left and returns its result with those behind it. Each
one consumes something, which is why the reader of nested values comes to an end; `Found` carries
the account of it.
-/

namespace SdlTypes.Json

/-- The reasons why a text cannot be read. -/
inductive ReadError where
  /-- The text holds no JSON, or more than one value. -/
  | malformed
  /-- A whole number has too many digits. -/
  | longNumber
  /-- Arrays and objects stand too deep inside one another. -/
  | tooDeep
  deriving DecidableEq

/-- The blanks of JSON. -/
def isSpace (c : Char) : Bool :=
  c = ' ' || c = '\t' || c = '\n' || c = '\r'

/-- The characters behind the blanks at the front. -/
def skipSpace (s : List Char) : List Char :=
  s.dropWhile isSpace

theorem length_skipSpace_le (s : List Char) : (skipSpace s).length ≤ s.length :=
  (List.dropWhile_sublist isSpace).length_le

theorem length_lt_of_skipSpace {s rest : List Char} {c : Char} (h : skipSpace s = c :: rest) :
    rest.length < s.length := by
  have := length_skipSpace_le s
  rw [h] at this
  exact this

/-- The character that a backslash and a letter stand for. -/
def simpleEscape? (c : Char) : Option Char :=
  match c with
  | '"' => some '"'
  | '\\' => some '\\'
  | '/' => some '/'
  | 'b' => some '\x08'
  | 'f' => some '\x0c'
  | 'n' => some '\n'
  | 'r' => some '\r'
  | 't' => some '\t'
  | _ => none

/-- Reads the rest of a string up to and with its closing quote. What an escape stands for is put
into the marked form. -/
def readString (s : List Char) : Option (List Char × List Char) :=
  match s with
  | [] => none
  | '"' :: rest => some ([], rest)
  | '\\' :: 'u' :: a :: b :: c :: d :: rest =>
    match Text.hexValue? [a, b, c, d] with
    | none => none
    | some n =>
      match if Text.isHighSurrogate n then Text.lowSurrogate? rest else none with
      | some low =>
        (readString (rest.drop 6)).map fun (t, left) =>
          (Text.written (Text.joinSurrogates n low) ++ t, left)
      | none => (readString rest).map fun (t, left) => (Text.written n ++ t, left)
  | '\\' :: c :: rest =>
    match simpleEscape? c with
    | none => none
    | some e => (readString rest).map fun (t, left) => (e :: t, left)
  | c :: rest =>
    if c.toNat < 32 then none else (readString rest).map fun (t, left) => (c :: t, left)
termination_by s.length
decreasing_by all_goals simp +arith [List.length_drop]

theorem length_readString {s t left : List Char} (h : readString s = some (t, left)) :
    left.length < s.length := by
  fun_induction readString s generalizing t left <;>
    grind [Option.map_eq_some_iff, List.length_drop]

/-- Splits off the decimal digits at the front. -/
def spanDigits (s : List Char) : List Char × List Char :=
  (s.takeWhile Char.isDigit, s.dropWhile Char.isDigit)

theorem length_spanDigits (s : List Char) :
    (spanDigits s).1.length + (spanDigits s).2.length = s.length := by
  rw [← List.length_append, spanDigits, List.takeWhile_append_dropWhile]

/-- The number that decimal digits write. -/
def digitsValue (digits : List Char) : Nat :=
  digits.foldl (fun n c => n * 10 + (c.toNat - 48)) 0

/-- Reads a fraction part, which may be missing. -/
def readFraction (s : List Char) : Option (List Char) × List Char :=
  match s with
  | '.' :: rest =>
    match spanDigits rest with
    | ([], _) => (none, s)
    | (digits, left) => (some digits, left)
  | _ => (none, s)

theorem length_readFraction_le (s : List Char) : (readFraction s).2.length ≤ s.length := by
  unfold readFraction
  grind [length_spanDigits]

/-- Reads an exponent part, which may be missing. -/
def readExponent (s : List Char) : Option Int × List Char :=
  match s with
  | e :: rest =>
    if e = 'e' ∨ e = 'E' then
      let (negative, unsigned) :=
        match rest with
        | '-' :: r => (true, r)
        | '+' :: r => (false, r)
        | r => (false, r)
      match spanDigits unsigned with
      | ([], _) => (none, s)
      | (digits, left) =>
        (some (if negative then -(digitsValue digits : Int) else digitsValue digits), left)
    else (none, s)
  | [] => (none, s)

theorem length_readExponent_le (s : List Char) : (readExponent s).2.length ≤ s.length := by
  unfold readExponent
  grind [length_spanDigits]

/-- Reads the digits before a point or an exponent: a zero stands alone. -/
def readWhole? (s : List Char) : Option (List Char × List Char) :=
  match s with
  | '0' :: rest => some (['0'], rest)
  | _ =>
    match spanDigits s with
    | ([], _) => none
    | p => some p

theorem length_readWhole? {s digits left : List Char} (h : readWhole? s = some (digits, left)) :
    left.length < s.length := by
  unfold readWhole? at h
  grind [length_spanDigits, List.length_pos_iff]

/-- How many digits a whole number may have. -/
def digitLimit : Nat := 4300

/-- Reads a number without its sign. -/
def readUnsigned (negative : Bool) (s : List Char) : Except ReadError (Json × List Char) :=
  match readWhole? s with
  | none => .error .malformed
  | some (digits, rest) =>
    match readFraction rest with
    | (fraction, rest) =>
      match readExponent rest with
      | (exponent, rest) =>
        if fraction.isNone && exponent.isNone then
          if digitLimit < digits.length then .error .longNumber
          else
            let n : Int := digitsValue digits
            .ok (.int (if negative then -n else n), rest)
        else
          let places := fraction.getD []
          .ok (.real (decimal negative (digitsValue (digits ++ places))
            (exponent.getD 0 - places.length)), rest)

theorem length_readUnsigned {negative : Bool} {s left : List Char} {j : Json}
    (h : readUnsigned negative s = .ok (j, left)) : left.length < s.length := by
  unfold readUnsigned at h
  grind [→ length_readWhole?, length_readFraction_le, length_readExponent_le]

/-- Reads a word or a number. -/
def readScalar : List Char → Except ReadError (Json × List Char)
  | 'n' :: 'u' :: 'l' :: 'l' :: rest => .ok (.null, rest)
  | 't' :: 'r' :: 'u' :: 'e' :: rest => .ok (.bool true, rest)
  | 'f' :: 'a' :: 'l' :: 's' :: 'e' :: rest => .ok (.bool false, rest)
  | 'N' :: 'a' :: 'N' :: rest => .ok (.real (0.0 / 0.0), rest)
  | 'I' :: 'n' :: 'f' :: 'i' :: 'n' :: 'i' :: 't' :: 'y' :: rest => .ok (.real (1.0 / 0.0), rest)
  | '-' :: 'I' :: 'n' :: 'f' :: 'i' :: 'n' :: 'i' :: 't' :: 'y' :: rest =>
    .ok (.real (-1.0 / 0.0), rest)
  | '-' :: rest => readUnsigned true rest
  | s => readUnsigned false s

theorem length_readScalar {s left : List Char} {j : Json} (h : readScalar s = .ok (j, left)) :
    left.length < s.length := by
  unfold readScalar at h
  split at h
  case h_7 => exact Nat.lt_succ_of_lt (length_readUnsigned h)
  case h_8 => exact length_readUnsigned h
  all_goals
    simp only [Except.ok.injEq, Prod.mk.injEq] at h
    simp +arith [← h.2]

/-! ## Nested values -/

/-- What a reader found at the front of `s`, and the characters behind it. -/
structure Found (s : List Char) (α : Type) where
  value : α
  rest : List Char
  length_rest : rest.length < s.length

/-- What was found in a part of the characters, as part of what is found in all of them. -/
def Found.within {s t : List Char} {α β : Type} (f : α → β) (h : s.length ≤ t.length)
    (found : Found s α) : Found t β :=
  ⟨f found.value, found.rest, Nat.lt_of_lt_of_le found.length_rest h⟩

/-- How deep arrays and objects may be nested in one another. -/
def nestingLimit : Nat := 986

mutual

/-- Reads one value that stands at the front of the characters, with room for so many arrays and
objects inside one another. -/
def readValue (room : Nat) (s : List Char) : Except ReadError (Found s Json) :=
  match s with
  | '"' :: rest =>
    match h : readString rest with
    | none => .error .malformed
    | some (t, left) =>
      .ok ⟨.string (String.ofList t), left, Nat.lt_succ_of_lt (length_readString h)⟩
  | '[' :: rest =>
    match room with
    | 0 => .error .tooDeep
    | inside + 1 =>
      match h : skipSpace rest with
      | ']' :: left => .ok ⟨.array [], left, by grind [→ length_lt_of_skipSpace]⟩
      | items =>
        (readItems inside items).map (Found.within .array (by grind [length_skipSpace_le rest]))
  | '{' :: rest =>
    match room with
    | 0 => .error .tooDeep
    | inside + 1 =>
      match h : skipSpace rest with
      | '}' :: left => .ok ⟨.object [], left, by grind [→ length_lt_of_skipSpace]⟩
      | members =>
        (readMembers inside members).map
          (Found.within (fun ms => .object (OrderedMap.ofList ms).entries)
            (by grind [length_skipSpace_le rest]))
  | s =>
    match h : readScalar s with
    | .error e => .error e
    | .ok (value, left) => .ok ⟨value, left, length_readScalar h⟩
termination_by (s.length, 0)
decreasing_by all_goals grind [length_skipSpace_le rest]

/-- Reads the items of an array up to and with its closing bracket. -/
def readItems (room : Nat) (s : List Char) : Except ReadError (Found s (List Json)) :=
  match readValue room s with
  | .error e => .error e
  | .ok ⟨item, rest, hr⟩ =>
    match h : skipSpace rest with
    | ']' :: left => .ok ⟨[item], left, by grind [→ length_lt_of_skipSpace]⟩
    | ',' :: more =>
      (readItems room (skipSpace more)).map
        (Found.within (item :: ·)
          (by grind [→ length_lt_of_skipSpace, length_skipSpace_le more]))
    | _ => .error .malformed
termination_by (s.length, 1)
decreasing_by all_goals grind [→ length_lt_of_skipSpace, length_skipSpace_le]

/-- Reads the members of an object up to and with its closing brace. -/
def readMembers (room : Nat) (s : List Char) : Except ReadError (Found s (List (String × Json))) :=
  match s with
  | '"' :: quoted =>
    match hq : readString quoted with
    | none => .error .malformed
    | some (name, behind) =>
      match hc : skipSpace behind with
      | ':' :: rest =>
        match readValue room (skipSpace rest) with
        | .error e => .error e
        | .ok ⟨value, left, hv⟩ =>
          match he : skipSpace left with
          | '}' :: left =>
            .ok ⟨[(String.ofList name, value)], left, by
              grind [→ length_lt_of_skipSpace, length_skipSpace_le, → length_readString]⟩
          | ',' :: more =>
            (readMembers room (skipSpace more)).map
              (Found.within ((String.ofList name, value) :: ·) (by
                grind [→ length_lt_of_skipSpace, length_skipSpace_le, → length_readString]))
          | _ => .error .malformed
      | _ => .error .malformed
  | _ => .error .malformed
termination_by (s.length, 1)
decreasing_by
  all_goals grind [→ length_lt_of_skipSpace, length_skipSpace_le, → length_readString]

end

/-- Reads a text that holds one value, with blanks around it and nothing else, with room for so
many arrays and objects inside one another. -/
def read (text : String) (room : Nat := nestingLimit) : Except ReadError Json :=
  match readValue room (skipSpace text.toList) with
  | .ok found => if found.rest.all isSpace then .ok found.value else .error .malformed
  | .error e => .error e

end SdlTypes.Json
