/-!
# Mixing words into a fingerprint

A fingerprint is computed from a sequence of numbers, its words. The state
starts at zero; every word is added to it and the sum multiplied by a fixed
odd number, modulo `2 ^ 64`; at the end the state is turned left by 26 bits,
so that the well-mixed high bits come to stand where a table looks first.

Words are natural numbers and become 64-bit only here. Mixing is thus the
only step in which two different bodies can come to the same fingerprint.
What is mixed is fixed by `LambdaSharing.Fingerprint.Pieces`.
-/

namespace LambdaSharing.Fingerprint

/-- The fixed odd number. -/
def multiplier : UInt64 := 0xf1357aea2e62a9c5

/-- Mix one more word into the state. -/
def mix (state : UInt64) (word : Nat) : UInt64 :=
  (state + UInt64.ofNat word) * multiplier

/-- The fingerprint of a final state: the state turned left by 26 bits. -/
def finish (state : UInt64) : UInt64 := (state <<< 26) ||| (state >>> 38)

/-- The fingerprint of a sequence of words. -/
def ofWords (words : List Nat) : UInt64 := finish (words.foldl mix 0)

end LambdaSharing.Fingerprint
