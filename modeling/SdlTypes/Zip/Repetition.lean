/-!
# Repetitions

Packed data tells to repeat a byte, or to copy bytes that have been written before. A copy may be
longer than the distance that it goes back: then it goes on with the bytes that it has written
itself.
-/

namespace SdlTypes.Zip

/-- Some bytes with more of one byte. -/
def pushMany (b : UInt8) : Nat → ByteArray → ByteArray
  | 0, s => s
  | n + 1, s => pushMany b n (s.push b)

theorem size_pushMany (b : UInt8) (n : Nat) (s : ByteArray) :
    (pushMany b n s).size = s.size + n := by
  induction n generalizing s with
  | zero => rfl
  | succ n ih => rw [pushMany, ih, ByteArray.size_push]; omega

/-- Some bytes with more of them, each a copy of the one at a distance before it. -/
def copyBack (distance : Nat) : Nat → ByteArray → ByteArray
  | 0, s => s
  | n + 1, s => copyBack distance n (s.push (s[s.size - distance]?.getD 0))

theorem size_copyBack (distance n : Nat) (s : ByteArray) :
    (copyBack distance n s).size = s.size + n := by
  induction n generalizing s with
  | zero => rfl
  | succ n ih => rw [copyBack, ih, ByteArray.size_push]; omega

end SdlTypes.Zip
