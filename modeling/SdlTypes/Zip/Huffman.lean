import SdlTypes.Zip.Bits

/-!
# Huffman codes

A code gives each symbol a word of bits. It is told by the lengths of its words alone: shorter
words come before longer ones, words of the same length are in the order of their symbols, and
each word is the number after the one before it.

`Huffman.ofLengths` builds a code and `Huffman.read` reads the symbol of the next word. `share`
tells how much of all bit sequences begin with a word: all of them do so in a complete code.
-/

namespace SdlTypes.Zip

/-- A code of symbols, which are numbers. -/
structure Huffman where
  /-- How many words there are of each length, from length one on. -/
  counts : List Nat
  /-- The symbols in the order of their words. -/
  symbols : Array Nat

namespace Huffman

/-- The code with words of given lengths, one for each symbol; a symbol of the length zero has no
word. Words have at most `longest` bits. -/
def ofLengths (longest : Nat) (lengths : List Nat) : Huffman where
  counts := (List.range longest).map fun n => lengths.count (n + 1)
  symbols := ((List.range longest).flatMap fun n =>
    (lengths.zipIdx.filter fun x => x.1 = n + 1).map (·.2)).toArray

/-- The symbol of a word of which some bits have been read. `next` is the number after the last
word of that length, and `skipped` tells how many words are not longer. -/
def readOn (order : BitOrder) (symbols : Array Nat) : List Nat → Nat → Nat → Nat → BitReader Nat
  | [], _, _, _ => BitReader.refuse
  | count :: longer, word, next, skipped => do
    let word := 2 * word + (← BitReader.bit order)
    let first := 2 * next
    if word < first + count then return symbols[skipped + (word - first)]?.getD 0
    readOn order symbols longer word (first + count) (skipped + count)

/-- The symbol of the next word. -/
def read (order : BitOrder) (h : Huffman) : BitReader Nat :=
  readOn order h.symbols h.counts 0 0 0

/-- How many of all sequences of `longest` bits begin with a word of one of the given lengths. -/
def share (longest : Nat) (lengths : List Nat) : Nat :=
  lengths.foldl (fun share n => if n = 0 then share else share + (1 <<< (longest - n))) 0

end Huffman

end SdlTypes.Zip
