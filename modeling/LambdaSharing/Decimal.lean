/-!
# Decimal numerals

Numbers occur in text in two places. A depth limit given on the command line
is read leniently, with a plus sign and leading zeros allowed. The key of an
entry in a saved plan is read strictly: every number has exactly one
numeral, the one it is written with. Both come down to `Decimal.ofDigits?`,
which reads digits and nothing else.
-/

namespace LambdaSharing.Decimal

/-- The value of a sequence of digits, of which there must be at least one. -/
def ofDigits? (cs : List Char) : Option Nat :=
  if cs ≠ [] ∧ cs.all Char.isDigit then some (Nat.ofDigitChars 10 cs 0) else none

/-- The value of a numeral that may begin with a plus sign. -/
def ofSigned? : List Char → Option Nat
  | '+' :: digits => ofDigits? digits
  | digits => ofDigits? digits

/-- The value of the numeral that a number is written with. -/
def ofCanonical? (s : String) : Option Nat :=
  (ofDigits? s.toList).filter fun n => toString n == s

/-- A number is read back from its digits. -/
@[simp] theorem ofDigits?_toDigits (n : Nat) : ofDigits? (Nat.toDigits 10 n) = some n := by
  have hne : Nat.toDigits 10 n ≠ [] := Nat.toDigits_ne_nil
  have hall : (Nat.toDigits 10 n).all Char.isDigit = true := by
    rw [List.all_eq_true]
    exact fun c hc => Nat.isDigit_of_mem_toDigits (by decide) (by decide) hc
  simp [ofDigits?, hne, hall]

/-- The strict reading accepts exactly what writing produces. -/
theorem ofCanonical?_eq_some_iff {s : String} {n : Nat} :
    ofCanonical? s = some n ↔ s = toString n := by
  unfold ofCanonical?
  constructor
  · intro h
    obtain ⟨_, hs⟩ := Option.filter_eq_some_iff.1 h
    exact (eq_of_beq hs).symm
  · rintro rfl
    simp [Option.filter_eq_some_iff]

end LambdaSharing.Decimal
