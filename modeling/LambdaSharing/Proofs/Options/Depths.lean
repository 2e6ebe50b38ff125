import Mathlib.Data.List.Induction
import Mathlib.Data.Nat.Digits.Defs
import Mathlib.Data.Set.List
import LambdaSharing.Proofs.Options.Switches

/-!
# Depths that are accepted

The limit on the depth of walks is the only setting that takes a number, and
a number has many spellings: a plus sign may stand in front of it, and zeros
may stand in front of its digits. What limits a depth is that it has to fit
into 64 bits, and this is a limit on the number and not on its length.
A string of any length may be a depth, provided that it begins with enough
zeros.

Digits are read from the left. With each of them, what has been read before
becomes ten times as large. What they stand for, on the other hand, is said
from the right: the last digit counts once, the one before it ten times, and
so on (`Decimal.value`). That both come to the same is
`Decimal.ofDigitChars_digits`, and it is all there is to numerals; the rest is
about which strings are numerals at all (`Decimal.Spells`).

Nothing is said of how large the numbers get on the way. They may as well be
kept in words of 64 bits, with an end to it as soon as one is too small
(`Decimal.pushDigit?`). For numbers only get larger with further digits, so a
word that is too small for the first digits is too small for all of them.
-/

namespace LambdaSharing

/-! ## Numerals -/

namespace Decimal

/-- How digits are written. -/
def digits (ds : List (Fin 10)) : List Char := ds.map fun d : Fin 10 => Nat.digitChar d

/-- **What digits stand for**: the last one counts once, and every other one
ten times as much as the one behind it. -/
def value (ds : List (Fin 10)) : ℕ := Nat.ofDigits 10 (ds.reverse.map Fin.val)

/-- **A string spells a number**: it is made of a plus sign or nothing, and of
one digit or more that stand for the number. -/
def Spells (s : String) (n : ℕ) : Prop :=
  ∃ sign ∈ ["", "+"], ∃ ds : List (Fin 10), ds ≠ [] ∧ s = sign ++ String.ofList (digits ds) ∧
    value ds = n

variable {cs : List Char} {ds : List (Fin 10)} {d : Fin 10} {s : String} {n : ℕ}

/-- One digit more makes all others count ten times as much. -/
theorem value_concat (ds : List (Fin 10)) (d : Fin 10) : value (ds ++ [d]) = 10 * value ds + d := by
  unfold value
  rw [List.reverse_concat, List.map_cons, Nat.ofDigits_cons, Nat.add_comm]

/-- The digits are the characters that digits are written with. -/
theorem isDigit_iff (c : Char) : c.isDigit ↔ c ∈ Set.range fun d : Fin 10 => Nat.digitChar d := by
  constructor
  · intro h
    obtain ⟨hzero, hnine⟩ := Char.isDigit_iff_toNat.1 h
    change 48 ≤ c.toNat at hzero
    change c.toNat ≤ 57 at hnine
    have hlt : c.toNat - 48 < 10 := by omega
    refine ⟨⟨c.toNat - 48, hlt⟩, Char.toNat_inj.1 ?_⟩
    show (Nat.digitChar (c.toNat - 48)).toNat = c.toNat
    rw [Nat.toNat_digitChar_of_lt_ten hlt]
    omega
  · rintro ⟨d, rfl⟩
    exact Nat.isDigit_digitChar.trans (decide_eq_true d.isLt)

/-- What is made of digits is the way in which digits are written. -/
theorem forall_isDigit_iff : (∀ c ∈ cs, c.isDigit) ↔ ∃ ds, digits ds = cs := by
  simp only [isDigit_iff]
  exact (Set.ext_iff.1 (Set.range_list_map _) cs).symm

/-- **Read from the left, digits come to what they stand for.** -/
theorem ofDigitChars_digits (ds : List (Fin 10)) :
    Nat.ofDigitChars 10 (digits ds) 0 = value ds := by
  induction ds using List.reverseRecOn with
  | nil => rfl
  | append_singleton ds d ih =>
    have hlast : digits (ds ++ [d]) = digits ds ++ [Nat.digitChar d] := List.map_append
    rw [hlast, Nat.ofDigitChars_append, ih, Nat.ofDigitChars_cons_digitChar_of_lt_ten d.isLt,
      Nat.ofDigitChars_nil, value_concat]

theorem digits_ne_nil_iff : digits ds ≠ [] ↔ ds ≠ [] := by
  rw [digits, ne_eq, List.map_eq_nil_iff]

/-- The characters of what stands behind a sign. -/
theorem toList_signed (sign : String) (cs : List Char) :
    (sign ++ String.ofList cs).toList = sign.toList ++ cs := by
  rw [String.toList_append, String.toList_ofList]

/-- The numerals are what spells a number. -/
theorem numeral_iff_spells : Numeral s.toList n ↔ Spells s n := by
  constructor
  · generalize hs : s.toList = cs
    rintro (⟨hne, hall⟩ | ⟨hne, hall⟩)
    · obtain ⟨ds, rfl⟩ := forall_isDigit_iff.1 hall
      refine ⟨"", by simp, ds, digits_ne_nil_iff.1 hne, ?_, (ofDigitChars_digits ds).symm⟩
      rw [← String.toList_inj, toList_signed, hs]
      rfl
    · obtain ⟨ds, rfl⟩ := forall_isDigit_iff.1 hall
      refine ⟨"+", by simp, ds, digits_ne_nil_iff.1 hne, ?_, (ofDigitChars_digits ds).symm⟩
      rw [← String.toList_inj, toList_signed, hs]
      rfl
  · rintro ⟨sign, hsign, ds, hne, rfl, rfl⟩
    have hne := digits_ne_nil_iff.2 hne
    have hall := forall_isDigit_iff.2 ⟨ds, rfl⟩
    rw [toList_signed, ← ofDigitChars_digits]
    rcases List.mem_pair.1 hsign with rfl | rfl
    · exact .plain hne hall
    · exact .plus hne hall

/-! ## Numerals in words of 64 bits -/

/-- A number is kept in a word of 64 bits, if the word is large enough. -/
def word? (n : ℕ) : Option UInt64 := if n < UInt64.size then some (UInt64.ofNat n) else none

/-- One digit more in a word: what it holds becomes ten times as much, then
the digit is added, and either may be too much. -/
def pushDigit? (w : UInt64) (d : Fin 10) : Option UInt64 := do
  let tens ← word? (10 * w.toNat)
  word? (tens.toNat + d)

theorem word?_of_lt (h : n < UInt64.size) : word? n = some (UInt64.ofNat n) := if_pos h

theorem word?_of_le (h : UInt64.size ≤ n) : word? n = none := if_neg (Nat.not_lt.2 h)

/-- What is too large stays too large when something larger is made of it. -/
theorem word?_bind (g : ℕ → ℕ) (h : n ≤ g n) :
    (word? n >>= fun w => word? (g w.toNat)) = word? (g n) := by
  rcases Nat.lt_or_ge n UInt64.size with hn | hn
  · rw [word?_of_lt hn]
    show word? (g (UInt64.ofNat n).toNat) = word? (g n)
    rw [UInt64.toNat_ofNat_of_lt' hn]
  · rw [word?_of_le hn, word?_of_le (hn.trans h)]
    rfl

theorem pushDigit?_eq (w : UInt64) (d : Fin 10) : pushDigit? w d = word? (10 * w.toNat + d) :=
  word?_bind (· + d.val) (Nat.le_add_right _ _)

/-- **Read in words, digits come to what they stand for**, unless that is too
much for a word. -/
theorem foldlM_pushDigit? (ds : List (Fin 10)) : ds.foldlM pushDigit? 0 = word? (value ds) := by
  induction ds using List.reverseRecOn with
  | nil => rfl
  | append_singleton ds d ih =>
    rw [List.foldlM_append, ih, value_concat]
    simp only [List.foldlM_cons, List.foldlM_nil, pushDigit?_eq, bind_pure]
    exact word?_bind (10 * · + d.val) (by omega)

end Decimal

/-! ## Depths -/

namespace Switch

variable {s : String} {n : ℕ}

/-- **The depths that are allowed**: numbers from one up to the largest one of
64 bits, spelled in any way. -/
theorem depth?_some_eq_some_iff :
    depth? (some s) = some n ↔ Decimal.Spells s n ∧ 1 ≤ n ∧ n ≤ 2 ^ 64 - 1 := by
  have hsize : n < UInt64.size ↔ n ≤ 2 ^ 64 - 1 := Nat.lt_iff_le_pred (by decide)
  rw [depth?, Option.filter_eq_some_iff, Decimal.ofSigned?_eq_some_iff, decide_eq_true_iff, hsize,
    Option.getD_some, Decimal.numeral_iff_spells]

/-- **The digits of a depth may be read in words.** What is too much for a
word on the way is a depth that is not allowed. -/
theorem depth?_of_digits {sign : String} (hsign : sign ∈ ["", "+"]) {ds : List (Fin 10)}
    (hne : ds ≠ []) :
    depth? (some (sign ++ String.ofList (Decimal.digits ds))) =
      ((ds.foldlM Decimal.pushDigit? 0).map UInt64.toNat).filter (1 ≤ ·) := by
  have hread : Decimal.ofSigned? (sign ++ String.ofList (Decimal.digits ds)).toList =
      some (Decimal.value ds) :=
    Decimal.ofSigned?_eq_some_iff.2
      (Decimal.numeral_iff_spells.2 ⟨sign, hsign, ds, hne, rfl, rfl⟩)
  rw [Decimal.foldlM_pushDigit?, depth?, Option.getD_some, hread, Option.filter_some]
  rcases Nat.lt_or_ge (Decimal.value ds) UInt64.size with hfits | hlarge
  · rw [Decimal.word?_of_lt hfits, Option.map_some, UInt64.toNat_ofNat_of_lt' hfits,
      Option.filter_some]
    simp only [hfits, and_true]
  · rw [Decimal.word?_of_le hlarge, if_neg (by simp [Nat.not_lt.2 hlarge])]
    rfl

/-! ## One switch alone -/

/-- A key with a value is read as such. -/
theorem reads_key (k : Key) (value : String) :
    Reads (k.text ++ "=" ++ value) ⟨k.text, some value⟩ := by
  refine ⟨?_, .inr ⟨fun rest h => ?_, String.append_assoc⟩⟩
  · show '=' ∉ k.text.toList
    cases k <;> decide
  · have hhead := congrArg (·.toList.head?) h
    cases k <;> simp [Key.text] at hhead

end Switch

namespace Options

open Switch

/-- **One key with a value** sets its field, or is an error. -/
theorem ofSwitches_singleton (k : Key) (value : String) :
    ofSwitches [k.text ++ "=" ++ value] =
      match k.setting? (some value) with
      | some v => .ok (Setting.apply {} v)
      | none => .error ⟨k, value⟩ := by
  have hread := reads_key k value
  rw [ofSwitches_eq]
  cases hvalue : k.setting? (some value) with
  | some v =>
    rw [applySwitches_of_gives ⟨_, hread, rfl, Key.setting?_eq_some_iff.1 hvalue⟩]
    rfl
  | none =>
    refine applySwitches_of_refused ⟨_, hread, rfl, fun v hv => ?_, rfl⟩
    rw [Key.setting?_eq_some_iff.2 hv] at hvalue
    cases hvalue

/-- **A depth is accepted exactly if it spells a number from one to the largest
one of 64 bits.** The number then becomes the limit, and all else is left at its
default. Whatever else stands behind the equals sign is refused, and the error
repeats it. -/
theorem ofSwitches_maxDepth (s : String) :
    (∀ o, ofSwitches ["dedup.maxDepth=" ++ s] = .ok o ↔
      ∃ n, Decimal.Spells s n ∧ 1 ≤ n ∧ n ≤ 2 ^ 64 - 1 ∧ o = { maxDepth := n }) ∧
    ∀ e, ofSwitches ["dedup.maxDepth=" ++ s] = .error e ↔
      (¬ ∃ n, Decimal.Spells s n ∧ 1 ≤ n ∧ n ≤ 2 ^ 64 - 1) ∧ e = ⟨.maxDepth, s⟩ := by
  have hone : ofSwitches ["dedup.maxDepth=" ++ s] = _ := ofSwitches_singleton .maxDepth s
  rw [hone, Key.setting?]
  cases hdepth : depth? (some s) with
  | some n =>
    obtain ⟨hspells, hpositive, hfits⟩ := depth?_some_eq_some_iff.1 hdepth
    refine ⟨fun o => ⟨fun h => ?_, ?_⟩, fun e => ⟨nofun, fun h => ?_⟩⟩
    · exact ⟨n, hspells, hpositive, hfits, (Except.ok.inj h).symm⟩
    · rintro ⟨m, hm, hpositive', hfits', rfl⟩
      have hdepth' := depth?_some_eq_some_iff.2 ⟨hm, hpositive', hfits'⟩
      rw [hdepth] at hdepth'
      obtain rfl := Option.some.inj hdepth'
      rfl
    · exact absurd ⟨n, hspells, hpositive, hfits⟩ h.1
  | none =>
    have hnone : ¬ ∃ n, Decimal.Spells s n ∧ 1 ≤ n ∧ n ≤ 2 ^ 64 - 1 := by
      rintro ⟨n, hn⟩
      rw [depth?_some_eq_some_iff.2 hn] at hdepth
      cases hdepth
    refine ⟨fun o => ⟨nofun, ?_⟩, fun e => ⟨fun h => ?_, ?_⟩⟩
    · rintro ⟨n, hspells, hpositive, hfits, -⟩
      exact absurd ⟨n, hspells, hpositive, hfits⟩ hnone
    · exact ⟨hnone, (Except.error.inj h).symm⟩
    · rintro ⟨-, rfl⟩
      rfl

/-- Zeros in front do not count, a space does. -/
example :
    ofSwitches ["dedup.maxDepth=+00018446744073709551615"] = .ok { maxDepth := 2 ^ 64 - 1 } ∧
      ofSwitches ["dedup.maxDepth=18446744073709551616"] =
        .error ⟨.maxDepth, "18446744073709551616"⟩ ∧
      ofSwitches ["dedup.maxDepth= 7"] = .error ⟨.maxDepth, " 7"⟩ :=
  ⟨rfl, rfl, rfl⟩

end Options

end LambdaSharing
