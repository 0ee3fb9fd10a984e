import SdlTypes.Zip.CodePage

/-!
# Directories of zip archives

A zip archive ends with a record that tells where its directory is, and the directory has an entry
for each member. Something may stand before the archive, so all places are counted from where the
archive begins: the directory lies right before the record, and what the record says about its
place gives the rest.

`Directory.ofBytes` finds the directory of an archive and reads its entries. `Directory.limit`
tells where the data of a member has to end at the latest: where the next member begins, or the
directory.
-/

namespace SdlTypes.Zip

/-- The ways to pack the data of a member. -/
inductive Method where
  | stored
  | deflate
  | bzip2
  | lzma
  deriving DecidableEq

/-- The way with a number. -/
def Method.ofNumber? : Nat → Option Method
  | 0 => some .stored
  | 8 => some .deflate
  | 12 => some .bzip2
  | 14 => some .lzma
  | _ => none

/-- The reasons why an archive cannot be unpacked. -/
inductive Error where
  /-- There is no record that ends an archive. -/
  | noEnd
  /-- The archive is one of several parts. -/
  | divided
  /-- The directory or its larger record would begin before the file. -/
  | outside
  /-- A header is cut off, or it does not begin with its mark. -/
  | badHeader
  /-- A field of an entry is cut off. -/
  | badField
  /-- A name is no UTF-8. -/
  | badName
  /-- A member needs a newer version, another kind of encryption or a way to pack that is not
  known. -/
  | unknown
  /-- A member is said to be at a place that no file has. -/
  | unreachable
  /-- A member is said to be at a place that no number can tell. -/
  | uncountable
  /-- A member has another name in its own header. -/
  | otherName
  /-- The data of a member would end after what follows it begins. -/
  | overlapping
  /-- A member is encrypted. -/
  | encrypted
  /-- The file ends before the data of a member. -/
  | noData
  /-- The data of a member is not packed as it is said to be. -/
  | corrupt (method : Method)
  /-- The data of a member has another checksum. -/
  | badChecksum
  deriving DecidableEq

/-- The text of an error. -/
def Error.message : Error → String
  | .noEnd => "there is no record that ends an archive"
  | .divided => "the archive is one of several parts"
  | .outside => "the directory would begin before the file"
  | .badHeader => "a header is damaged"
  | .badField => "a field of an entry is cut off"
  | .badName => "a name cannot be decoded"
  | .unknown => "a member needs something that is not known"
  | .unreachable => "a member is out of reach"
  | .uncountable => "a member is too far away"
  | .otherName => "a member has two names"
  | .overlapping => "a member runs into the next one"
  | .encrypted => "a member is encrypted"
  | .noData => "data is missing"
  | .corrupt _ => "data is damaged"
  | .badChecksum => "data has another checksum"

/-! ## Bytes -/

/-- The number that some bytes from a place on write, the lowest one first. -/
def numberAt (s : ByteArray) (place size : Nat) : Nat :=
  (s.extract place (place + size)).toList.foldr (fun b n => b.toNat + 256 * n) 0

/-- Whether there is a mark at a place: two fixed bytes and two that tell what follows. -/
def hasMark (s : ByteArray) (place : Nat) (kind : UInt8 × UInt8) : Bool :=
  (s.extract place (place + 4)).toList = [0x50, 0x4B, kind.1, kind.2]

/-- Whether a bit of a number is set. -/
def hasFlag (flags bit : Nat) : Bool :=
  flags.testBit bit

/-- The bit that tells that a name is in UTF-8. -/
def unicodeFlag : Nat := 11

/-! ## The end of an archive -/

/-- What the end of an archive says about its directory. -/
structure End where
  /-- Where the directory ends. -/
  place : Nat
  /-- How long the directory is. -/
  size : Nat
  /-- Where it begins, counted from where the archive begins. -/
  offset : Nat

/-- The number of bytes of the record at the end. -/
def endSize : Nat := 22

/-- The most bytes behind that record. They are a comment. -/
def commentLimit : Nat := 65536

/-- The place of the last mark of an end among the places below one. -/
def lastMark? (s : ByteArray) (least : Nat) : Nat → Option Nat
  | 0 => none
  | n + 1 =>
    if n < least then none
    else if hasMark s n (5, 6) then some n
    else lastMark? s least n

/-- The place of the record at the end. An archive that ends in a record without a comment has no
other one. -/
def endPlace? (s : ByteArray) : Option Nat :=
  let last := s.size - endSize
  if s.size < endSize then none
  else if hasMark s last (5, 6) && numberAt s (last + 20) 2 = 0 then some last
  else (lastMark? s (last - commentLimit) s.size).filter (· + endSize ≤ s.size)

/-- The number of bytes of the record before the end that tells where the larger one is. -/
def locatorSize : Nat := 20

/-- The number of bytes of the larger record, which has room for larger numbers. -/
def largeSize : Nat := 56

/-- What the end of an archive says. A larger record takes the place of the one at the end. -/
def readEnd (s : ByteArray) : Except Error End := do
  let some place := endPlace? s | throw .noEnd
  let plain : End := ⟨place, numberAt s (place + 12) 4, numberAt s (place + 16) 4⟩
  if place < locatorSize || !hasMark s (place - locatorSize) (6, 7) then return plain
  let locator := place - locatorSize
  if numberAt s (locator + 4) 4 ≠ 0 || 1 < numberAt s (locator + 16) 4 then throw .divided
  if locator < largeSize then throw .outside
  let large := locator - largeSize
  if !hasMark s large (6, 6) then return plain
  return ⟨large, numberAt s (large + 40) 8, numberAt s (large + 48) 8⟩

/-! ## Entries -/

/-- What the directory says about a member. -/
structure Member where
  /-- The name, as it is written. -/
  written : String
  flags : Nat
  method : Nat
  checksum : Nat
  /-- The bytes of the packed data. -/
  packedSize : Nat
  /-- The bytes of the data. -/
  size : Nat
  /-- Where the member begins. -/
  place : Int
  deriving DecidableEq

/-- The name of a member. The character zero ends it. -/
def Member.name (m : Member) : String :=
  String.ofList (m.written.toList.takeWhile (· ≠ '\x00'))

/-- The sizes and the offset of a member, which may be too large for their places. -/
structure Extent where
  size : Nat
  packedSize : Nat
  offset : Nat

/-- The number that stands for one that is too large for its place. -/
def tooLarge : Nat := 0xFFFFFFFF

/-- The same for a size that has been read from a field. -/
def stillTooLarge : Nat := 0xFFFFFFFFFFFFFFFF

/-- The next number of a field, and the field without it. -/
def takeNumber (field : ByteArray) : Except Error (Nat × ByteArray) :=
  if field.size < 8 then .error .badField
  else .ok (numberAt field 0 8, field.extract 8 field.size)

/-- Reads those numbers from a field that are too large for their places. -/
def Extent.enlarge (x : Extent) (field : ByteArray) : Except Error Extent := do
  let (size, field) ← if x.size = tooLarge || x.size = stillTooLarge then takeNumber field
    else pure (x.size, field)
  let (packedSize, field) ← if x.packedSize = tooLarge then takeNumber field
    else pure (x.packedSize, field)
  let (offset, _) ← if x.offset = tooLarge then takeNumber field else pure (x.offset, field)
  return ⟨size, packedSize, offset⟩

/-- Reads the fields of an entry, one after the other. There are less fields than bytes. -/
def Extent.readFields : (steps : Nat) → ByteArray → Extent → Except Error Extent
  | 0, _, x => .ok x
  | steps + 1, fields, x => do
    if fields.size < 4 then return x
    let next := 4 + numberAt fields 2 2
    if fields.size < next then throw .badField
    let x ← if numberAt fields 0 2 = 1 then x.enlarge (fields.extract 4 next) else pure x
    readFields steps (fields.extract next fields.size) x

/-- The number of bytes of an entry before its name. -/
def entrySize : Nat := 46

/-- The newest version that is known. -/
def knownVersion : Nat := 63

/-- Reads the entry at a place of the directory, and the place where the next one begins. The
archive begins at `origin`. -/
def readEntry (s : ByteArray) (origin : Int) (place : Nat) : Except Error (Member × Nat) := do
  if s.size < place + entrySize || !hasMark s place (1, 2) then throw .badHeader
  let flags := numberAt s (place + 8) 2
  let nameEnd := place + entrySize + numberAt s (place + 28) 2
  let fieldsEnd := nameEnd + numberAt s (place + 30) 2
  let some written :=
    readName? (hasFlag flags unicodeFlag) (s.extract (place + entrySize) nameEnd)
    | throw .badName
  if knownVersion < numberAt s (place + 6) 1 then throw .unknown
  let fields := s.extract nameEnd fieldsEnd
  let x ← Extent.readFields (fields.size + 1) fields
    ⟨numberAt s (place + 24) 4, numberAt s (place + 20) 4, numberAt s (place + 42) 4⟩
  return ({
    written
    flags
    method := numberAt s (place + 10) 2
    checksum := numberAt s (place + 16) 4
    packedSize := x.packedSize
    size := x.size
    place := origin + x.offset }, fieldsEnd + numberAt s (place + 32) 2)

/-- Reads the entries from a place on to the end of the directory. There are less entries than
bytes. -/
def readEntries (s : ByteArray) (origin : Int) : (steps : Nat) → Nat → Except Error (List Member)
  | 0, _ => .ok []
  | steps + 1, place => do
    if s.size ≤ place then return []
    let (m, next) ← readEntry s origin place
    return m :: (← readEntries s origin steps next)

/-! ## Directories -/

/-- The directory of an archive. -/
structure Directory where
  /-- Where it begins. -/
  start : Nat
  /-- The members in their order. -/
  members : List Member

namespace Directory

/-- The directory of an archive with some bytes. -/
def ofBytes (s : ByteArray) : Except Error Directory := do
  let e ← readEnd s
  if e.place < e.size then throw .outside
  let start := e.place - e.size
  let members ← readEntries (s.extract start e.place) (start - e.offset) (e.size + 1) 0
  return ⟨start, members⟩

/-- Where the data of the member at an index has to end at the latest. Of members that begin at
the same place only the first one has room for any. -/
def limitAt (d : Directory) (index : Nat) (m : Member) : Int :=
  if (d.members.take index).any (·.place = m.place) then m.place
  else
    let later := (d.members.map (·.place)).filter (m.place < ·)
    later.min?.getD d.start

/-- The members that are unpacked, each with its limit: for each name in its order the last one
that has it. -/
def unpacked (d : Directory) : List (Member × Int) :=
  let limited := d.members.zipIdx.map fun (m, index) => (m, d.limitAt index m)
  d.members.filterMap fun m => limited.reverse.find? (·.1.name = m.name)

end Directory

end SdlTypes.Zip
