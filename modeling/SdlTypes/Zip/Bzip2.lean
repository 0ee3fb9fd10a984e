import SdlTypes.Zip.Bzip2.Turns
import SdlTypes.Zip.Checksum
import SdlTypes.Zip.Huffman
import SdlTypes.Zip.Repetition

/-!
# Data in sorted blocks

Data in blocks of up to 900000 bytes. The bytes of a block come in the order of what follows them
and are unsorted by going from each to the next; they are given as places in a list with the most
recent byte first, and these, with the lengths of runs of the first place, as Huffman words. The
data itself has been shortened before: four equal bytes are followed by the number of those that
are left out.

`readBlock` reads a block. A `Bzip2.State` is a place in the data together with what has been
unpacked so far, and `State.feed` goes on as far as the data reaches. A block is given away when
it has been read as a whole. It is given away in buffers, and a new one is taken only if there is
data left: of the last block the rest is `held` until there is.
-/

namespace SdlTypes.Zip.Bzip2

open BitReader

/-! ## Codes -/

/-- A byte. -/
def readByte : BitReader Nat := number .highFirst 8

/-- Reads a byte that has to be one of its place. -/
def expect (byte : Nat) : BitReader Unit := do
  require ((← readByte) = byte)

/-- Reads whether there is something, for some things. -/
def readFlags (count : Nat) : BitReader (List Bool) :=
  (List.replicate count ()).mapM fun _ => return (← bit .highFirst) = 1

/-- Reads the bytes that a block has, in their order. -/
def readAlphabet : BitReader (List UInt8) := do
  let groups ← readFlags 16
  let flags ← groups.mapM fun isUsed => if isUsed then readFlags 16 else pure []
  let bytes := (groups.zip flags).zipIdx.flatMap fun ((_, used), group) =>
    (used.zipIdx.filter (·.1)).map fun (_, i) => (16 * group + i).toUInt8
  require !bytes.isEmpty
  return bytes

/-- Reads how many bits are set before the next one that is not; there are less than `most`. -/
def readUnary (most : Nat) : BitReader Nat :=
  go 0 most
where
  /-- Reads on after some bits. -/
  go (read : Nat) : Nat → BitReader Nat
    | 0 => refuse
    | n + 1 => do if (← bit .highFirst) = 0 then return read else go (read + 1) n

/-- The element at a place of a list and the list with it in front. -/
def moveToFront {α : Type} (l : List α) (place : Nat) : Option (α × List α) :=
  l[place]?.map fun x => (x, x :: l.eraseIdx place)

/-- What places in a list stand for, if each one moves to the front. -/
def followMoves {α : Type} (l : List α) : List Nat → List α
  | [] => []
  | place :: rest =>
    match moveToFront l place with
    | some (x, l) => x :: followMoves l rest
    | none => followMoves l rest

/-- The most words of one code before another one may be chosen. -/
def groupSize : Nat := 50

/-- The most choices of a code. Further ones are read and have no effect. -/
def choiceLimit : Nat := 18002

/-- Reads which of some codes is for which group of words. -/
def readChoices (codes : Nat) : BitReader (List Nat) := do
  let count ← number .highFirst 15
  require (count ≠ 0)
  let places ← (List.replicate count ()).mapM fun _ => readUnary codes
  return followMoves (List.range codes) (places.take choiceLimit)

/-- The longest words of a code. -/
def longest : Nat := 20

/-- Reads the length of a word, which is told by steps from the one before. There is a bit for
each step, so the bits of the data are enough steps. -/
def readLength : (steps : Nat) → Nat → BitReader Nat
  | 0, _ => throw .short
  | steps + 1, length => do
    require (1 ≤ length && length ≤ longest)
    if (← bit .highFirst) = 0 then return length
    if (← bit .highFirst) = 0 then readLength steps (length + 1)
    else readLength steps (length - 1)

/-- Reads the lengths of some words, starting from a length. -/
def readLengthsFrom (length : Nat) : Nat → BitReader (List Nat)
  | 0 => pure []
  | n + 1 => do
    let length ← readLength (8 * (← read).size + 1) length
    return length :: (← readLengthsFrom length n)

/-- Reads a code of some symbols. A word that is too long is found out by its next bit. -/
def readCode (symbols : Nat) : BitReader Huffman := do
  let lengths ← readLengthsFrom (← number .highFirst 5) symbols
  return .ofLengths (longest + 1) lengths

/-! ## Words -/

/-- What has been read of the words of a block. -/
structure Column where
  /-- The bytes of the block, with the most recent one first. -/
  recent : List UInt8
  bytes : ByteArray := .empty
  /-- How often the most recent byte is still to be put down. -/
  run : Nat := 0
  /-- What the next word of a run counts. -/
  weight : Nat := 1

/-- From this weight on a run goes no further. -/
def weightLimit : Nat := 1 <<< 21

namespace Column

/-- Puts down the bytes of a run. There may not be more bytes than a block has. -/
def flush (capacity : Nat) (c : Column) : BitReader Column := do
  require (c.run = 0 || c.bytes.size + c.run ≤ capacity)
  let bytes := pushMany (c.recent.headD 0) c.run c.bytes
  return { c with bytes, run := 0, weight := 1 }

/-- Puts down the byte at a place, which becomes the most recent one. -/
def put (capacity place : Nat) (c : Column) : BitReader Column := do
  require (c.bytes.size < capacity)
  match moveToFront c.recent place with
  | some (b, recent) => return { c with bytes := c.bytes.push b, recent }
  | none => refuse

end Column

/-- Reads the words of a block up to the one that ends it, each with its code. -/
def readWords (capacity final : Nat) : List Huffman → Column → BitReader ByteArray
  | [], _ => refuse
  | code :: codes, c => do
    let symbol ← code.read .highFirst
    if symbol < 2 then
      require (c.weight < weightLimit)
      readWords capacity final codes
        { c with run := c.run + (symbol + 1) * c.weight, weight := 2 * c.weight }
    else
      let c ← c.flush capacity
      if symbol = final then return c.bytes
      readWords capacity final codes (← c.put capacity (symbol - 1))

/-! ## Sorting back -/

/-- Where the bytes of each value begin when they are in order. -/
def starts (column : ByteArray) : Array Nat :=
  let counts := column.foldl (fun counts b => counts.modify b.toNat (· + 1))
    (Array.replicate 256 0)
  (counts.foldl (fun (starts, sum) n => (starts.push sum, sum + n)) (#[], 0)).1

/-- For each place the place of the byte that comes next. -/
def successors (column : ByteArray) : Array Nat :=
  (column.foldl (fun (next, starts, i) b =>
    let place := starts[b.toNat]?.getD 0
    (next.setIfInBounds place i, starts.setIfInBounds b.toNat (place + 1), i + 1))
    (Array.replicate column.size 0, starts column, 0)).1

/-- The bytes from a place on, with bits turned over if the block is randomized. -/
def unsort (column : ByteArray) (next : Array Nat) (isRandom : Bool) :
    (count place : Nat) → Turns → ByteArray → ByteArray
  | 0, _, _, s => s
  | n + 1, place, turns, s =>
    let turns := turns.advance
    let b := column[place]?.getD 0
    let b := if isRandom then b ^^^ turns.mask else b
    unsort column next isRandom n (next[place]?.getD 0) turns (s.push b)

/-- What a block holds. -/
structure Block where
  bytes : ByteArray
  /-- Whether the block ends well and its checksum is right. -/
  isSound : Bool
  checksum : UInt32

/-- How many equal bytes have been read, and which. -/
structure Run where
  length : Nat := 0
  byte : UInt8 := 0

/-- Puts back what has been left out after four equal bytes. -/
def lengthen (s : ByteArray) (count : Nat) : Nat → Run → ByteArray → ByteArray × Run
  | 0, run, out => (out, run)
  | n + 1, run, out =>
    let b := s[count - (n + 1)]?.getD 0
    if run.length = 4 then lengthen s count n {} (pushMany run.byte b.toNat out)
    else
      let length := if run.length ≠ 0 && b = run.byte then run.length + 1 else 1
      lengthen s count n ⟨length, b⟩ (out.push b)

/-- The block with some sorted bytes. One byte more than it has is looked at: it is what follows
four equal bytes at the end, which makes the block unsound. -/
def blockOf (column : ByteArray) (start : Nat) (isRandom : Bool) (stored : UInt32) : Block :=
  let next := successors column
  let n := column.size
  let s := unsort column next isRandom (n + 1) (next[start]?.getD 0) {} .empty
  let (out, run) := lengthen s n n {} .empty
  let isWhole := run.length ≠ 4
  let out := if isWhole then out else pushMany run.byte (s[n]?.getD 0).toNat out
  let checksum := checksum .highFirst out
  ⟨out, isWhole && checksum = stored, checksum⟩

/-- Reads a block after its mark. -/
def readBlock (capacity : Nat) : BitReader Block := do
  let stored ← number .highFirst 32
  let isRandom := (← bit .highFirst) = 1
  let start ← number .highFirst 24
  require (start ≤ 10 + capacity)
  let alphabet ← readAlphabet
  let count ← number .highFirst 3
  require (2 ≤ count && count ≤ 6)
  let choices ← readChoices count
  let codes ← (List.replicate count ()).mapM fun _ => readCode (alphabet.length + 2)
  let words := choices.flatMap fun i =>
    List.replicate groupSize (codes[i]?.getD ⟨[], #[]⟩)
  let column ← readWords capacity (alphabet.length + 1) words { recent := alphabet }
  require (start < column.size)
  return blockOf column start isRandom stored.toUInt32

/-! ## Unpacking -/

/-- What comes next in the data. -/
inductive Phase where
  /-- The mark of the whole, with the size of blocks. -/
  | head
  /-- A block of a limited number of bytes, or the end. -/
  | block (capacity : Nat)
  /-- There is nothing more. -/
  | ended

/-- How far some data has been unpacked. -/
structure State where
  /-- The bits that have been read. -/
  position : Nat := 0
  phase : Phase := .head
  /-- The checksums of all blocks, put together. -/
  sum : UInt32 := 0
  output : ByteArray := .empty
  /-- What is left of the last block. -/
  held : Option Block := none

/-- Reads the mark of the whole. -/
def readHead : BitReader Phase := do
  expect 0x42
  expect 0x5A
  expect 0x68
  let size ← readByte
  require (0x31 ≤ size && size ≤ 0x39)
  return .block (100000 * (size - 0x30))

/-- Reads what follows: a block, or the end with the checksums of all blocks. -/
def readPart (capacity : Nat) (sum : UInt32) : BitReader (Option Block) := do
  match ← readByte with
  | 0x31 =>
    [0x41, 0x59, 0x26, 0x53, 0x59].forM expect
    return some (← readBlock capacity)
  | 0x17 =>
    [0x72, 0x45, 0x38, 0x50, 0x90].forM expect
    require ((← number .highFirst 32).toUInt32 = sum)
    return none
  | _ => refuse

/-- The sizes of the first buffers. -/
def bufferSizes : List Nat :=
  [15, 16, 18, 20, 22, 23, 24, 24, 25, 25, 25, 25, 26, 26, 27, 27, 28].map (1 <<< ·)

/-- How many bytes fit into the buffers that some bytes need. -/
def roomFor (count : Nat) : Nat :=
  go 0 bufferSizes
where
  /-- The room in some buffers and in the first ones of others. -/
  go (room : Nat) : List Nat → Nat
    | [] => count
    | size :: sizes => if count ≤ room + size then room + size else go (room + size) sizes

namespace State

/-- Gives away bytes of a block, at most `room` of them. A block that is not sound is refused
when all of it has been given away. -/
def give (room : Nat) (b : Block) (s : State) : State × Option Stop :=
  let now := min room b.bytes.size
  let output := s.output ++ b.bytes.extract 0 now
  if now < b.bytes.size then
    ({ s with output, held := some { b with bytes := b.bytes.extract now b.bytes.size } },
      some .short)
  else if !b.isSound then ({ s with output, held := none }, some .corrupt)
  else
    let sum := ((s.sum <<< 1) ||| (s.sum >>> 31)) ^^^ b.checksum
    ({ s with output, held := none, sum }, none)

/-- Reads what comes next; the output had `start` bytes when these data came. If no data is left,
a block is given away in the buffers that are there. -/
def step (data : ByteArray) (start : Nat) (s : State) : State × Option Stop :=
  match s.held, s.phase with
  | some b, _ => s.give b.bytes.size b
  | none, .head =>
    match readHead data s.position with
    | .error stop => (s, some stop)
    | .ok (phase, position) => ({ s with position, phase }, none)
  | none, .block capacity =>
    match readPart capacity s.sum data s.position with
    | .error stop => (s, some stop)
    | .ok (none, position) => ({ s with position, phase := .ended }, none)
    | .ok (some b, position) =>
      let given := s.output.size - start
      let isLeft := (position + 7) / 8 < data.size
      let room := if isLeft then b.bytes.size else roomFor given - given
      give room b { s with position }
  | none, .ended => (s, some .ended)

/-- Takes steps until one of them comes to a halt. -/
def run (data : ByteArray) (start : Nat) : (steps : Nat) → State → State × Stop
  | 0, s => (s, .short)
  | steps + 1, s =>
    match s.step data start with
    | (s, some stop) => (s, stop)
    | (s, none) => run data start steps s

/-- Goes on with the data, of which there is more than before. Each step but two reads a byte at
least, so the steps suffice. -/
def feed (data : ByteArray) (s : State) : State × Stop :=
  s.run data s.output.size (data.size + 3)

end State

end SdlTypes.Zip.Bzip2
