import SdlTypes.Zip.Bits

/-!
# Checksums

The remainder of the division of some bytes by a polynomial of degree 32 over the field with two
elements. It is the same polynomial for both orders of bits.
-/

namespace SdlTypes.Zip

/-- The register after a bit has been shifted out of it, and the polynomial taken off if that bit
was set. -/
def shiftOut : BitOrder → UInt32 → UInt32
  | .lowFirst, c => if c &&& 1 = 1 then (c >>> 1) ^^^ 0xEDB88320 else c >>> 1
  | .highFirst, c => if c >>> 31 = 1 then (c <<< 1) ^^^ 0x04C11DB7 else c <<< 1

/-- The register after the eight bits of a byte. -/
def addByte (order : BitOrder) (c : UInt32) (b : UInt8) : UInt32 :=
  let mixed := match order with
    | .lowFirst => c ^^^ b.toUInt32
    | .highFirst => c ^^^ (b.toUInt32 <<< 24)
  Nat.repeat (shiftOut order) 8 mixed

/-- The checksum of some bytes. -/
def checksum (order : BitOrder) (s : ByteArray) : UInt32 :=
  ~~~ s.foldl (addByte order) 0xFFFFFFFF

end SdlTypes.Zip
