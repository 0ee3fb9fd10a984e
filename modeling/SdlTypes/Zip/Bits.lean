/-!
# Bits

Packed data is a sequence of bits, and formats differ in the order in which the bits of a byte
come. A `BitReader` reads bits from the front of some bytes. It stops where the bytes end, since
more of them may still come, and where a format finds the bits to be no data of its own.

`bit` reads one bit and `number` the bits of a number; the first bit of a number is its lowest or
its highest one, as the bits of a byte are. `toByte` goes on to the next whole byte.
-/

namespace SdlTypes.Zip

/-- The order in which the bits of a byte come. -/
inductive BitOrder where
  | lowFirst
  | highFirst
  deriving DecidableEq

/-- Why unpacking comes to a halt. -/
inductive Stop where
  /-- The packed data has come to its end. -/
  | ended
  /-- More bytes are needed. -/
  | short
  /-- There is no room for the next byte. -/
  | full
  /-- The bytes are no data of the format. -/
  | corrupt
  deriving DecidableEq

/-- A reader of bits. It sees all bytes, and its state is the number of bits before the next. -/
abbrev BitReader (α : Type) := ReaderT ByteArray (StateT Nat (Except Stop)) α

namespace BitReader

/-- How many bits stand in a byte before the bit with a given weight, or the other way round. -/
def weight : BitOrder → Nat → Nat
  | .lowFirst, i => i
  | .highFirst, i => 7 - i

/-- The next bit. -/
def bit (order : BitOrder) : BitReader Nat := fun s i =>
  match s[i / 8]? with
  | some b => .ok ((b.toNat >>> weight order (i % 8)) % 2, i + 1)
  | none => .error .short

/-- The number that the next bits write after those of `before`, the highest one first. -/
def highNumber (before : Nat) : Nat → BitReader Nat
  | 0 => pure before
  | n + 1 => do highNumber (2 * before + (← bit .highFirst)) n

/-- The number that the next bits write, the lowest one first. -/
def lowNumber : Nat → BitReader Nat
  | 0 => pure 0
  | n + 1 => do
    let b ← bit .lowFirst
    return b + 2 * (← lowNumber n)

/-- The number that the next bits write. -/
def number (order : BitOrder) (bits : Nat) : BitReader Nat :=
  match order with
  | .lowFirst => lowNumber bits
  | .highFirst => highNumber 0 bits

/-- Skips the rest of a byte that has been begun. -/
def toByte : BitReader Unit :=
  modify fun i => (i + 7) / 8 * 8

/-- Refuses the data. -/
def refuse {α : Type} : BitReader α :=
  throw .corrupt

/-- Refuses the data unless a condition holds. -/
def require (condition : Bool) : BitReader Unit :=
  if condition then pure () else refuse

end BitReader

end SdlTypes.Zip
