import SdlTypes.Zip.Bits
import SdlTypes.Zip.Repetition

/-!
# Range-coded data

Data as a sequence of bits, each of which is coded with the chance that it had so far in a context
of its own. The bits tell symbols: a byte, or a copy of bytes that have been written before, whose
distance is new or one of the last four. A distance that no data can have marks the end.

A `Lzma.State` is a place in the data with the chances and what has been unpacked so far.
`symbol` reads a symbol and writes what it stands for, and `unpack` does so as often as it can.
-/

namespace SdlTypes.Zip.Lzma

/-! ## Contexts -/

/-- What a header tells. -/
structure Settings where
  /-- How many high bits of the byte before a byte are part of its context. -/
  byteBits : Nat
  /-- How many low bits of its place are part of the context of a byte. -/
  bytePlaceBits : Nat
  /-- How many low bits of its place are part of the context of other things. -/
  placeBits : Nat
  /-- The longest distance of a copy. -/
  reach : Nat

/-- The most bits of the context of a byte. -/
def byteContextLimit : Nat := 4

/-- The shortest reach. -/
def leastReach : Nat := 4096

/-- The settings that the five bytes of a header tell, if they are settings at all. -/
def Settings.ofBytes? (s : ByteArray) : Option Settings :=
  match s.toList with
  | [b, r0, r1, r2, r3] =>
    let n := b.toNat
    let reach := [r3, r2, r1, r0].foldl (fun n b => 256 * n + b.toNat) 0
    let t : Settings :=
      ⟨n % 9, n / 9 % 5, n / 45, (max leastReach reach + 15) / 16 * 16⟩
    if n < 225 && t.byteBits + t.bytePlaceBits ≤ byteContextLimit then some t else none
  | _ => none

/-! The contexts are numbered, and below are the first numbers of those for one purpose. Where
there is a context for each kind of last symbols, there are twelve of them, sixteen apart where
places count, too. -/

/-- Whether there is a copy. -/
def isCopy : Nat := 0

/-- Whether a copy has one of the last distances. -/
def isRecent : Nat := isCopy + 12 * 16

/-- Whether that is not the last one, not the second last, not the third last. -/
def isOlder : Nat := isRecent + 12

/-- Whether a copy with the last distance is longer than one byte. -/
def isLong : Nat := isOlder + 3 * 12

/-- The number of bits of a distance, for four groups of lengths. -/
def distanceSlot : Nat := isLong + 12 * 16

/-- The bits of short distances. -/
def shortDistance : Nat := distanceSlot + 4 * 64

/-- The lowest bits of long distances. -/
def distanceEnd : Nat := shortDistance + 114

/-- The length of a copy with a new distance. -/
def newLength : Nat := distanceEnd + 16

/-- The length of a copy with one of the last distances. -/
def recentLength : Nat := newLength + 514

/-- The bits of bytes. -/
def byteBit : Nat := recentLength + 514

/-- The contexts of the bits of one byte. -/
def byteContexts : Nat := 768

/-- The number of all contexts. -/
def Settings.contexts (t : Settings) : Nat :=
  byteBit + (byteContexts <<< (t.byteBits + t.bytePlaceBits))

/-! ## Bits -/

/-- How far some data has been unpacked. -/
structure State where
  /-- The bytes that have been read. -/
  position : Nat
  /-- The size of the range in which the code lies. -/
  range : UInt32 := 0xFFFFFFFF
  code : UInt32
  /-- The chances of the bit zero, in parts of 2048. -/
  chances : Array UInt16
  /-- Which kinds of symbols have come last. -/
  kind : Nat := 0
  /-- The last four distances less one, the last one first. -/
  distances : Nat × Nat × Nat × Nat := (0, 0, 0, 0)
  output : ByteArray := .empty

/-- A step of unpacking. It sees all bytes of the data, and it may stop between two bits. -/
abbrev Step (α : Type) := ReaderT ByteArray (ExceptT Stop (StateM State)) α

/-- Makes the range as large as is needed for a bit. -/
def widen : Step Unit := fun data s =>
  if s.range < 0x1000000 then
    match data[s.position]? with
    | some b => (.ok (), { s with
        position := s.position + 1
        range := s.range <<< 8
        code := (s.code <<< 8) ||| b.toUInt32 })
    | none => (.error .short, s)
  else (.ok (), s)

/-- The next bit in a context, which learns from it. -/
def divide (context : Nat) : Step Nat := fun _ s =>
  let chance := s.chances[context]?.getD 1024
  let bound := (s.range >>> 11) * chance.toUInt32
  if s.code < bound then
    (.ok 0, { s with
      range := bound
      chances := s.chances.setIfInBounds context (chance + ((2048 - chance) >>> 5)) })
  else
    (.ok 1, { s with
      range := s.range - bound
      code := s.code - bound
      chances := s.chances.setIfInBounds context (chance - (chance >>> 5)) })

/-- Reads a bit in a context. -/
def bit (context : Nat) : Step Nat := do
  widen
  divide context

/-- Halves the range: the next bit has no context. -/
def halve : Step Nat := fun _ s =>
  let half := s.range >>> 1
  let rest := s.code - half
  let isLow := rest >>> 31 = 1
  (.ok (if isLow then 0 else 1), { s with
    range := half
    code := if isLow then rest + half else rest })

/-- The number that bits without context write after those of `before`. -/
def plainNumber (before : Nat) : Nat → Step Nat
  | 0 => pure before
  | n + 1 => do
    widen
    plainNumber (2 * before + (← halve)) n

/-- The number that bits write, the highest one first. The context of each is told by those before
it; `before` is the one bit before all of them. -/
def treeNumber (context before : Nat) : Nat → Step Nat
  | 0 => pure before
  | n + 1 => do treeNumber context (2 * before + (← bit (context + before))) n

/-- The number that some bits write, the highest one first. -/
def number (context bits : Nat) : Step Nat :=
  return (← treeNumber context 1 bits) - (1 <<< bits)

/-- The number that bits write, the lowest one first. -/
def turnedNumber (context before : Nat) : Nat → Step Nat
  | 0 => pure 0
  | n + 1 => do
    let b ← bit (context + before)
    return b + 2 * (← turnedNumber context (2 * before + b) n)

/-! ## Symbols -/

/-- The byte that is `distance + 1` before the end; there is a zero before all bytes. -/
def State.byteBack (s : State) (distance : Nat) : Nat :=
  if distance < s.output.size then
    (s.output[s.output.size - (distance + 1)]?.getD 0).toNat
  else 0

/-- The bits of a byte after those of `before`, while they are those of `other`, of which `left`
bits are left; from the first bit on that is not, there is no other byte. -/
def byteBeside (context other before : Nat) : (left : Nat) → Step Nat
  | 0 => pure before
  | n + 1 => do
    let expected := (other >>> n) % 2
    let b ← bit (context + 256 * (1 + expected) + before)
    if b = expected then byteBeside context other (2 * before + b) n
    else treeNumber context (2 * before + b) n

/-- Reads a byte and writes it. After a copy its bits are seen beside those of the byte that would
have been copied next. -/
def readByte (t : Settings) : Step Unit := do
  let s ← get
  let place := s.output.size % (1 <<< t.bytePlaceBits)
  let last := s.byteBack 0 >>> (8 - t.byteBits)
  let (kind, other) := (s.kind, s.byteBack s.distances.1)
  let context := byteBit + byteContexts * ((place <<< t.byteBits) + last)
  let b ← if kind < 7 then treeNumber context 1 8 else byteBeside context other 1 8
  modify fun s => { s with
    output := s.output.push b.toUInt8
    kind := if kind < 4 then 0 else if kind < 10 then kind - 3 else kind - 6 }

/-- Writes a copy of some bytes with the last distance. -/
def copy (count : Nat) : Step Unit :=
  modify fun s => { s with output := copyBack (s.distances.1 + 1) count s.output }

/-- Reads the length of a copy. -/
def readLength (context place : Nat) : Step Nat := do
  if (← bit context) = 0 then return 2 + (← number (context + 2 + 8 * place) 3)
  else if (← bit (context + 1)) = 0 then
    return 10 + (← number (context + 130 + 8 * place) 3)
  else return 18 + (← number (context + 258) 8)

/-- Reads a distance less one for a copy of a length. -/
def readDistance (count : Nat) : Step Nat := do
  let slot ← number (distanceSlot + 64 * min (count - 2) 3) 6
  if slot < 4 then return slot
  let bits := slot / 2 - 1
  let start := (2 + slot % 2) <<< bits
  if slot < 14 then
    return start + (← turnedNumber (shortDistance + start - slot - 1) 1 bits)
  let high ← plainNumber 0 (bits - 4)
  return start + 16 * high + (← turnedNumber distanceEnd 1 4)

/-- The distance that marks the end. -/
def endDistance : Nat := 0xFFFFFFFF

/-- Reads a copy with a new distance. The end has to leave nothing of the code. -/
def readNew (t : Settings) (place : Nat) : Step Unit := do
  let count ← readLength newLength place
  let distance ← readDistance count
  if distance = endDistance then
    widen
    throw (if (← get).code = 0 then .ended else .corrupt)
  let size := (← get).output.size
  if min size t.reach ≤ distance then throw .corrupt
  modify fun s =>
    let (a, b, c, _) := s.distances
    { s with distances := (distance, a, b, c), kind := if s.kind < 7 then 7 else 10 }
  copy count

/-- Reads which of the last distances a copy has, and brings it to the front. -/
def readOlder (kind : Nat) : Step Unit := do
  if (← bit (isOlder + 12 + kind)) = 0 then
    modify fun s => let (a, b, c, d) := s.distances; { s with distances := (b, a, c, d) }
  else if (← bit (isOlder + 24 + kind)) = 0 then
    modify fun s => let (a, b, c, d) := s.distances; { s with distances := (c, a, b, d) }
  else modify fun s => let (a, b, c, d) := s.distances; { s with distances := (d, a, b, c) }

/-- Reads a copy with one of the last distances. There has to be something to copy. -/
def readRecent (kind place : Nat) : Step Unit := do
  if (← get).output.isEmpty then throw .corrupt
  if (← bit (isOlder + kind)) = 0 then
    if (← bit (isLong + 16 * kind + place)) = 0 then
      modify fun s => { s with kind := if kind < 7 then 9 else 11 }
      copy 1
      return
  else readOlder kind
  let count ← readLength recentLength place
  modify fun s => { s with kind := if kind < 7 then 8 else 11 }
  copy count

/-- Reads a symbol and writes what it stands for. -/
def symbol (t : Settings) : Step Unit := do
  let s ← get
  let (kind, place) := (s.kind, s.output.size % (1 <<< t.placeBits))
  if (← bit (isCopy + 16 * kind + place)) = 0 then readByte t
  else if (← bit (isRecent + kind)) = 0 then readNew t place
  else readRecent kind place

/-! ## Unpacking -/

/-- Reads symbols until there is a halt. -/
def run (t : Settings) (data : ByteArray) : (steps : Nat) → State → ByteArray × Stop
  | 0, s => (s.output, .short)
  | steps + 1, s =>
    match symbol t data s with
    | (.ok (), s) => run t data steps s
    | (.error stop, s) => (s.output, stop)

/-- How many symbols a byte can tell at most. A symbol has four bits at least, and a bit takes off
more than a sixty-fourth part of the range. -/
def symbolsPerByte : Nat := 128

/-- The place where the code begins, which is the first byte. That has to be zero. -/
def start (t : Settings) (data : ByteArray) : Except Stop State :=
  match (data.extract 0 5).toList with
  | [] => .error .short
  | first :: rest =>
    if first ≠ 0 then .error .corrupt
    else if rest.length < 4 then .error .short
    else .ok {
      position := 5
      code := rest.foldl (fun n b => (n <<< 8) ||| b.toUInt32) 0
      chances := Array.replicate t.contexts 1024 }

/-- What some data stands for, as far as it goes. -/
def unpack (t : Settings) (data : ByteArray) : ByteArray × Stop :=
  match start t data with
  | .error stop => (.empty, stop)
  | .ok s => run t data (symbolsPerByte * (data.size + 1)) s

end SdlTypes.Zip.Lzma
