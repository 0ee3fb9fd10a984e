import SdlTypes.Zip.Bzip2
import SdlTypes.Zip.Deflate
import SdlTypes.Zip.Lzma
import SdlTypes.Zip.Directory

/-!
# Contents of members

A member has a header of its own before its packed data. `Member.locate` looks at this header and
finds the data, `Member.read` unpacks it.

The data is taken in portions and unpacked until there are as many bytes as the directory says, or
until the data ends: what comes after that is not looked at, and less bytes are no error. So it
depends on the portions how far data has to be sound. Its checksum has to be right in any case.
-/

namespace SdlTypes.Zip

/-! ## Unpacking in portions -/

/-- How far data has been unpacked, in one of the ways to pack it. -/
inductive Unpacking where
  | stored (output : ByteArray)
  | deflate (state : Deflate.State)
  | bzip2 (state : Bzip2.State)
  | lzma (output : ByteArray)

namespace Unpacking

/-- Nothing has been unpacked. -/
def start : Method → Unpacking
  | .stored => .stored .empty
  | .deflate => .deflate {}
  | .bzip2 => .bzip2 {}
  | .lzma => .lzma .empty

/-- The bytes that have been unpacked. -/
def output : Unpacking → ByteArray
  | .stored s | .lzma s => s
  | .deflate s => s.output
  | .bzip2 s => s.output

/-- Unpacks range-coded data, of which a header tells the settings. Before them the header has two
bytes without meaning and the number of its other bytes. -/
def unpackRanges (data : ByteArray) : ByteArray × Stop :=
  let header := 4 + numberAt data 2 2
  if data.size ≤ 4 || data.size ≤ header then (.empty, .short)
  else match Lzma.Settings.ofBytes? (data.extract 4 header) with
    | some t => Lzma.unpack t (data.extract header data.size)
    | none => (.empty, .corrupt)

/-- Goes on with the data, of which there is more than before. Only deflated data is unpacked bit
by bit, so only there the room matters. -/
def advance (data : ByteArray) (room : Nat) : Unpacking → Unpacking × Stop
  | .stored _ => (.stored data, .short)
  | .deflate s =>
    let (s, stop) := s.advance data (s.output.size + room)
    (.deflate s, stop)
  | .bzip2 s =>
    let (s, stop) := s.feed data
    (.bzip2 s, stop)
  | .lzma _ =>
    let (output, stop) := unpackRanges data
    (.lzma output, stop)

/-- How many bytes of the data have been taken. -/
def taken (data : ByteArray) (stop : Stop) : Unpacking → Nat
  | .deflate s => s.taken data stop
  | _ => data.size

/-- Gives away what is due when all data has been taken. It does not matter any more whether the
bits that are left are sound. -/
def finish (data : ByteArray) : Unpacking → Unpacking
  | .deflate s => .deflate (s.advance data (s.output.size + 258 * (8 * data.size + 1))).1
  | u => u

end Unpacking

/-- The bytes of a portion of unpacked data. -/
def portion : Nat := 65536

/-- The least bytes that are taken at once. -/
def leastPortion : Nat := 4096

/-- Packed data that lies in an archive. -/
structure PackedData where
  method : Method
  /-- The data. The file may end before it does. -/
  bytes : ByteArray
  /-- How many bytes there should be. -/
  packedSize : Nat
  /-- The most bytes that are unpacked. -/
  size : Nat
  checksum : Nat

namespace PackedData

/-- Unpacks portions of the data until there is enough or all of it has been taken. `given` bytes
of the data are there for unpacking, and `taken` of them are no longer needed. Each step takes a
byte or gives one away, so both sizes together are enough steps. -/
def unpackFrom (p : PackedData) :
    (steps given taken : Nat) → Unpacking → Except Error ByteArray
  | 0, _, _, u => .ok u.output
  | steps + 1, given, taken, u => do
    let wanted := portion - u.output.size % portion
    let waiting := given - taken
    let more := if wanted ≤ waiting then 0
      else min (max (wanted - waiting) leastPortion) (p.packedSize - given)
    let given' := min (given + more) p.bytes.size
    if more ≠ 0 && given' ≤ given then throw .noData
    let data := p.bytes.extract 0 given'
    let (u, stop) := u.advance data (max wanted leastPortion)
    if stop = .corrupt then throw (.corrupt p.method)
    let taken := u.taken data stop
    let isAll := p.packedSize ≤ given' && given' ≤ taken
    let u := if isAll && stop ≠ .ended then u.finish data else u
    if isAll || stop = .ended || p.size ≤ u.output.size then return u.output
    p.unpackFrom steps given' taken u

/-- Unpacks the data. Its checksum has to be right. -/
def unpack (p : PackedData) : Except Error ByteArray := do
  let output ← p.unpackFrom (p.bytes.size + p.size + 1) 0 0 (.start p.method)
  let s := output.extract 0 p.size
  if (Zip.checksum .lowFirst s).toNat ≠ p.checksum then throw .badChecksum
  return s

end PackedData

/-! ## Headers -/

/-- The last place that a file can have. -/
def placeLimit : Int := 0xFFFFFFFF000

/-- The first number that is too large for a place. -/
def numberLimit : Int := 0x8000000000000000

/-- The number of bytes of a header before the name. -/
def headerSize : Nat := 30

namespace Member

/-- The place of a member in a file. -/
def filePlace (m : Member) : Except Error Nat :=
  if m.place < -numberLimit || numberLimit ≤ m.place then .error .uncountable
  else if m.place < 0 || placeLimit < m.place then .error .unreachable
  else .ok m.place.toNat

/-- Finds the data of a member whose data has to end at a limit. -/
def locate (s : ByteArray) (limit : Int) (m : Member) : Except Error PackedData := do
  let place ← m.filePlace
  if s.size < place + headerSize || !hasMark s place (3, 4) then throw .badHeader
  let nameEnd := place + headerSize + numberAt s (place + 26) 2
  let dataPlace := min (nameEnd + numberAt s (place + 28) 2) s.size
  if hasFlag m.flags 5 || hasFlag m.flags 6 then throw .unknown
  let some written := readName? (hasFlag (numberAt s (place + 6) 2) unicodeFlag)
    (s.extract (place + headerSize) nameEnd) | throw .badName
  if written ≠ m.written then throw .otherName
  if limit < dataPlace + m.packedSize then throw .overlapping
  if hasFlag m.flags 0 then throw .encrypted
  let some method := Method.ofNumber? m.method | throw .unknown
  return {
    method
    bytes := s.extract dataPlace (dataPlace + m.packedSize)
    packedSize := m.packedSize
    size := m.size
    checksum := m.checksum }

end Member

end SdlTypes.Zip
