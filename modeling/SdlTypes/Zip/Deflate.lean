import SdlTypes.Zip.Huffman
import SdlTypes.Zip.Repetition

/-!
# Deflated data

Data in blocks, each of which is stored as it is or a sequence of Huffman words: a word stands for
a byte, for a copy of bytes that have been written before, or for the end of the block. The words
of a block are fixed ones or its own, which it begins with.

A `Deflate.State` is a place in the data together with what has been written so far.
`State.advance` goes on until there is no more data or no more room; both may come later, and then
it goes on from there. What has been read may be due to be written while there is no room for it.
-/

namespace SdlTypes.Zip.Deflate

open BitReader

/-! ## Blocks -/

/-- What is to be written before more is read. -/
inductive Due where
  | byte (b : UInt8)
  /-- Some of the bytes that have been written, from a distance back on. -/
  | copy (count distance : Nat)

/-- What comes next in the data. -/
inductive Phase where
  /-- The head of a block. -/
  | head
  /-- Bytes that are stored as they are. -/
  | stored (count : Nat)
  /-- Words of two codes: the second one is for distances. -/
  | coded (symbols distances : Huffman)
  /-- There is nothing more. -/
  | ended

/-- The longest words of a code. -/
def longest : Nat := 15

/-- Whether words with some lengths make a code: a complete one, one without words, or, where
`maySingle` says so, one with a single word of one bit. -/
def isCode (maySingle : Bool) (lengths : List Nat) : Bool :=
  let share := Huffman.share longest lengths
  let most := lengths.foldl max 0
  let all := 1 <<< longest
  share = all || most = 0 || (maySingle && most = 1 && share < all)

/-- The code with words of some lengths. It knows no words that are longer than its longest. -/
def codeOf (lengths : List Nat) : Huffman :=
  .ofLengths (max 1 (lengths.foldl max 0)) lengths

/-- The symbols of the fixed code. -/
def fixedSymbols : Huffman :=
  codeOf (List.replicate 144 8 ++ List.replicate 112 9 ++ List.replicate 24 7 ++
    List.replicate 8 8)

/-- The distances of the fixed code. -/
def fixedDistances : Huffman :=
  codeOf (List.replicate 32 5)

/-- The order in which the lengths of the words for lengths are given. -/
def lengthOrder : List Nat :=
  [16, 17, 18, 0, 8, 7, 9, 6, 10, 5, 11, 4, 12, 3, 13, 2, 14, 1, 15]

/-- The code for lengths, of which the first lengths are given. If it has no words, each bit
stands for the length zero. -/
def lengthCode (given : List Nat) : BitReader Huffman := do
  let lengths := (List.range 19).map fun symbol =>
    ((lengthOrder.zip given).lookup symbol).getD 0
  require (isCode false lengths)
  return if lengths.all (· = 0) then ⟨[2], #[0, 0]⟩ else codeOf lengths

/-- Reads lengths of words until there are `count`. The last symbols of the code stand for a
repetition of a length. Each step gives one length at least, so `steps` need not be more than
what is missing. -/
def readLengths (code : Huffman) (count : Nat) : (steps : Nat) → Array Nat → BitReader (Array Nat)
  | 0, lengths => pure lengths
  | steps + 1, lengths => do
    if count ≤ lengths.size then return lengths
    let symbol ← code.read .lowFirst
    if symbol < 16 then readLengths code count steps (lengths.push symbol)
    else
      let times ← match symbol with
        | 16 => (3 + ·) <$> lowNumber 2
        | 17 => (3 + ·) <$> lowNumber 3
        | _ => (11 + ·) <$> lowNumber 7
      require (symbol ≠ 16 || !lengths.isEmpty)
      require (lengths.size + times ≤ count)
      let length := if symbol = 16 then lengths.back?.getD 0 else 0
      readLengths code count steps (lengths ++ Array.replicate times length)

/-- Reads the two codes of a block. -/
def readCodes : BitReader Phase := do
  let symbols := 257 + (← lowNumber 5)
  let distances := 1 + (← lowNumber 5)
  let given := 4 + (← lowNumber 4)
  require (symbols ≤ 286 && distances ≤ 30)
  let code ← lengthCode (← (List.replicate given ()).mapM fun _ => lowNumber 3)
  let count := symbols + distances
  let lengths := (← readLengths code count count #[]).toList
  let (first, second) := (lengths.take symbols, lengths.drop symbols)
  require (first[256]?.getD 0 ≠ 0)
  require (isCode true first)
  require (isCode true second)
  return .coded (codeOf first) (codeOf second)

/-- Reads the head of a block: whether it is the last one, and what follows. -/
def readHead : BitReader (Bool × Phase) := do
  let isLast := (← lowNumber 1) = 1
  match ← lowNumber 2 with
  | 0 =>
    toByte
    let count ← lowNumber 16
    let complement ← lowNumber 16
    require (count + complement = 0xFFFF)
    return (isLast, .stored count)
  | 1 => return (isLast, .coded fixedSymbols fixedDistances)
  | 2 => return (isLast, ← readCodes)
  | _ => refuse

/-! ## Words -/

/-- Reads the number of bytes that a symbol from 257 on stands for. -/
def readCount (symbol : Nat) : BitReader Nat := do
  let k := symbol - 257
  if k < 8 then return 3 + k
  else if k = 28 then return 258
  else if 28 < k then refuse
  else
    let more := k / 4 - 1
    return 3 + ((4 + k % 4) <<< more) + (← lowNumber more)

/-- Reads the distance that a symbol stands for. -/
def readDistance (symbol : Nat) : BitReader Nat := do
  if symbol < 4 then return 1 + symbol
  else if 29 < symbol then refuse
  else
    let more := symbol / 2 - 1
    return 1 + ((2 + symbol % 2) <<< more) + (← lowNumber more)

/-- Reads a word and what belongs to it; at the end of the block there is nothing to write. -/
def readDue (symbols distances : Huffman) : BitReader (Option Due) := do
  let symbol ← symbols.read .lowFirst
  if symbol < 256 then return some (.byte symbol.toUInt8)
  else if symbol = 256 then return none
  else
    let count ← readCount symbol
    return some (.copy count (← readDistance (← distances.read .lowFirst)))

/-! ## Unpacking -/

/-- How far some data has been unpacked. -/
structure State where
  /-- The bits that have been read. -/
  position : Nat := 0
  /-- Whether the block is the last one. -/
  isLast : Bool := false
  phase : Phase := .head
  due : Option Due := none
  output : ByteArray := .empty

/-- Appends some of the bytes from a place on. -/
def copyStored (data : ByteArray) (place : Nat) : Nat → ByteArray → ByteArray
  | 0, s => s
  | n + 1, s => copyStored data (place + 1) n (s.push (data[place]?.getD 0))

namespace State

/-- The state after a block. -/
def closed (s : State) : State :=
  { s with phase := if s.isLast then .ended else .head }

/-- Writes what is due as far as there is room. A copy needs as many bytes before it as it goes
back. -/
def write (limit : Nat) (due : Due) (s : State) : State × Option Stop :=
  if limit ≤ s.output.size then (s, some .full)
  else match due with
    | .byte b => ({ s with output := s.output.push b, due := none }, none)
    | .copy count distance =>
      if s.output.size < distance then (s, some .corrupt)
      else
        let now := min count (limit - s.output.size)
        let left := if now < count then some (.copy (count - now) distance) else none
        ({ s with output := copyBack distance now s.output, due := left }, none)

/-- Copies stored bytes as far as there are some and there is room. -/
def store (data : ByteArray) (limit count : Nat) (s : State) : State × Option Stop :=
  let place := s.position / 8
  if count = 0 then (s.closed, none)
  else if data.size ≤ place then (s, some .short)
  else if limit ≤ s.output.size then (s, some .full)
  else
    let now := min count (min (data.size - place) (limit - s.output.size))
    ({ s with
      output := copyStored data place now s.output
      position := s.position + 8 * now
      phase := .stored (count - now) }, none)

/-- Writes what is due, or reads what comes next. -/
def step (data : ByteArray) (limit : Nat) (s : State) : State × Option Stop :=
  match s.due, s.phase with
  | some due, _ => s.write limit due
  | none, .head =>
    match readHead data s.position with
    | .error stop => (s, some stop)
    | .ok ((isLast, phase), position) => ({ s with position, isLast, phase }, none)
  | none, .stored count => s.store data limit count
  | none, .coded symbols distances =>
    match readDue symbols distances data s.position with
    | .error stop => (s, some stop)
    | .ok (none, position) => (closed { s with position }, none)
    | .ok (due, position) => ({ s with position, due }, none)
  | none, .ended => (s, some .ended)

/-- Takes steps until one of them comes to a halt. -/
def run (data : ByteArray) (limit : Nat) : (steps : Nat) → State → State × Stop
  | 0, s => (s, .short)
  | steps + 1, s =>
    match s.step data limit with
    | (s, some stop) => (s, stop)
    | (s, none) => run data limit steps s

/-- Goes on with the data, of which there may be more than before, until the output has `limit`
bytes. Of two steps one reads a bit at least, so the steps suffice. -/
def advance (data : ByteArray) (limit : Nat) (s : State) : State × Stop :=
  s.run data limit (2 * (8 * data.size + 2))

/-- The bytes of the data that a state has taken. If more of them are needed, all have been. -/
def taken (data : ByteArray) (s : State) (stop : Stop) : Nat :=
  if stop = .short then data.size else (s.position + 7) / 8

end State

end SdlTypes.Zip.Deflate
