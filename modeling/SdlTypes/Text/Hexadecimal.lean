import SdlTypes.Text.Surrogate

/-!
# Hexadecimal escapes

What escapes of the form `\u00e9` need: the value of hexadecimal digits, and the second of two
escapes that write a character beyond sixteen bits together.
-/

namespace SdlTypes.Text

/-- The value of a hexadecimal digit. -/
def hexDigit? (c : Char) : Option Nat :=
  if '0' ≤ c ∧ c ≤ '9' then some (c.toNat - 48)
  else if 'a' ≤ c ∧ c ≤ 'f' then some (c.toNat - 87)
  else if 'A' ≤ c ∧ c ≤ 'F' then some (c.toNat - 55)
  else none

/-- The number that hexadecimal digits write, if all of them are. -/
def hexValue? (digits : List Char) : Option Nat :=
  digits.foldlM (fun n c => (hexDigit? c).map (n * 16 + ·)) 0

/-- The second surrogate that an escape at the front of the characters writes. -/
def lowSurrogate? : List Char → Option Nat
  | '\\' :: 'u' :: a :: b :: c :: d :: _ =>
    match hexValue? [a, b, c, d] with
    | some n => if isLowSurrogate n then some n else none
    | none => none
  | _ => none

end SdlTypes.Text
