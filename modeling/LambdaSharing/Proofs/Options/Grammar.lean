import LambdaSharing.Options.Switch

/-!
# What a switch says

A switch is looked at in two steps, and both are described here without
saying how they are done. How a string is cut into key and value is
`Switch.Reads`: the parts put together again give the string, less one marker
if it begins with one, and the key ends before the first equals sign. That
leaves no choice, so every string is read in one way only (`ofString_eq_iff`).
What a value means under a key is `Switch.Means`, which lists the values that
are allowed; a depth is written as a `Decimal.Numeral`, of any length and with
any number of zeros in front.

So a string says one of three things. It has no key of ours; or it gives a
value to one of the six settings (`Switch.Gives`); or it is refused
(`Switch.Refused`).
-/

namespace LambdaSharing

/-! ## Depths -/

namespace Decimal

/-- **A numeral and its value**: one digit or more, with or without a plus
sign in front. -/
inductive Numeral : List Char → Nat → Prop where
  | plain {digits : List Char} (nonempty : digits ≠ []) (all : ∀ c ∈ digits, c.isDigit) :
    Numeral digits (Nat.ofDigitChars 10 digits 0)
  | plus {digits : List Char} (nonempty : digits ≠ []) (all : ∀ c ∈ digits, c.isDigit) :
    Numeral ('+' :: digits) (Nat.ofDigitChars 10 digits 0)

variable {cs : List Char} {n : Nat}

theorem ofDigits?_eq_some_iff :
    ofDigits? cs = some n ↔ (cs ≠ [] ∧ ∀ c ∈ cs, c.isDigit) ∧ Nat.ofDigitChars 10 cs 0 = n := by
  simp [ofDigits?, List.all_eq_true]

/-- The lenient reading accepts exactly the numerals. -/
theorem ofSigned?_eq_some_iff : ofSigned? cs = some n ↔ Numeral cs n := by
  constructor
  · intro h
    unfold ofSigned? at h
    split at h
    · obtain ⟨⟨hne, hall⟩, rfl⟩ := ofDigits?_eq_some_iff.1 h
      exact .plus hne hall
    · obtain ⟨⟨hne, hall⟩, rfl⟩ := ofDigits?_eq_some_iff.1 h
      exact .plain hne hall
  · rintro (⟨hne, hall⟩ | ⟨hne, hall⟩)
    · unfold ofSigned?
      split
      · -- a plus sign is no digit
        exact absurd (hall '+' List.mem_cons_self) (by decide)
      · exact ofDigits?_eq_some_iff.2 ⟨⟨hne, hall⟩, rfl⟩
    · exact ofDigits?_eq_some_iff.2 ⟨⟨hne, hall⟩, rfl⟩

end Decimal

/-- The key under which a field is set. -/
def Setting.key : Setting → Switch.Key
  | deduplicate _ => .deduplicate
  | policy _ => .capturePolicy
  | maxDepth _ => .maxDepth
  | noteFolded _ => .noteFolded
  | noteMethods _ => .noteMethods
  | trace _ => .trace

namespace Switch

variable {s : String} {w : Switch} {k : Key} {value : Option String} {v : Setting}

/-! ## Cutting a string -/

/-- A switch as it is written without a marker. -/
def text (w : Switch) : String := w.key ++ w.value.elim "" ("=" ++ ·)

/-- **How a string is read.** -/
structure Reads (s : String) (w : Switch) : Prop where
  /-- The key goes up to the first equals sign. -/
  key_free : '=' ∉ w.key.toList
  /-- One marker is dropped if there is one. -/
  written : s = "-XD" ++ w.text ∨ (∀ rest, s ≠ "-XD" ++ rest) ∧ s = w.text

/-- At most one marker is dropped. -/
theorem withoutMarker_cases (cs : List Char) :
    cs = "-XD".toList ++ withoutMarker cs ∨
      (∀ rest, cs ≠ "-XD".toList ++ rest) ∧ withoutMarker cs = cs := by
  unfold withoutMarker
  split
  · exact .inl rfl
  · next h => exact .inr ⟨fun rest => h rest, rfl⟩

/-- What is left of a string when its key is taken off. -/
theorem dropWhile_key_cases (cs : List Char) :
    cs.dropWhile (· ≠ '=') = [] ∨ ∃ value, cs.dropWhile (· ≠ '=') = '=' :: value := by
  induction cs with
  | nil => exact .inl rfl
  | cons c cs ih =>
    by_cases h : c = '='
    · exact .inr ⟨cs, by rw [List.dropWhile_cons_of_neg (by simpa using h), h]⟩
    · rwa [List.dropWhile_cons_of_pos (by simpa using h)]

/-- The characters of a switch that is written without a marker. -/
theorem toList_text (w : Switch) :
    w.text.toList = w.key.toList ++ w.value.elim [] ('=' :: ·.toList) := by
  cases h : w.value <;> simp [text, h]

theorem key_ofString (s : String) :
    (ofString s).key.toList = (withoutMarker s.toList).takeWhile (· ≠ '=') :=
  String.toList_ofList

/-- Behind the key comes nothing, or an equals sign and the value. -/
theorem value_ofString (s : String) :
    (ofString s).value.elim [] ('=' :: ·.toList) =
      (withoutMarker s.toList).dropWhile (· ≠ '=') := by
  unfold ofString
  rcases dropWhile_key_cases (withoutMarker s.toList) with h | ⟨value, h⟩
  · simp only [h]
    rfl
  · simp only [h]
    exact congrArg _ String.toList_ofList

/-- The parts of a string put together again. -/
theorem toList_text_ofString (s : String) :
    (ofString s).text.toList = withoutMarker s.toList := by
  rw [toList_text, value_ofString, key_ofString, List.takeWhile_append_dropWhile]

/-- What is written without a marker is cut into its parts. -/
theorem ofString_of_toList (hkey : '=' ∉ w.key.toList)
    (h : withoutMarker s.toList = w.text.toList) : ofString s = w := by
  have hbefore : ∀ c ∈ w.key.toList, decide (c ≠ '=') = true :=
    fun c hc => decide_eq_true fun heq => hkey (heq ▸ hc)
  rw [toList_text] at h
  rw [ofString, h, List.takeWhile_append_of_pos hbefore, List.dropWhile_append_of_pos hbefore]
  obtain ⟨key, _ | value⟩ := w <;> simp

/-- **Every string is read in one way.** -/
theorem ofString_eq_iff : ofString s = w ↔ Reads s w := by
  constructor
  · rintro rfl
    refine ⟨fun h => ?_, ?_⟩
    · rw [key_ofString] at h
      have hfree := List.all_eq_true.1 List.all_takeWhile '=' h
      exact of_decide_eq_true hfree rfl
    · rw [← String.toList_inj, ← String.toList_inj, String.toList_append, toList_text_ofString]
      rcases withoutMarker_cases s.toList with h | ⟨hnone, h⟩
      · exact .inl h
      · exact .inr ⟨fun rest heq => hnone rest.toList (by rw [heq, String.toList_append]), h.symm⟩
  · rintro ⟨hkey, hwritten⟩
    refine ofString_of_toList hkey ?_
    rcases hwritten with rfl | ⟨hnone, rfl⟩
    · rw [String.toList_append]
      rfl
    · rcases withoutMarker_cases w.text.toList with h | ⟨-, h⟩
      · refine absurd ?_ (hnone (String.ofList (withoutMarker w.text.toList)))
        rw [← String.toList_inj, String.toList_append]
        exact h.trans (congrArg _ String.toList_ofList.symm)
      · exact h

/-! ## What a value means -/

/-- How a truth value is given. A key by itself turns something on. -/
inductive Truth : Option String → Bool → Prop where
  | bare : Truth none true
  | on : Truth (some "true") true
  | off : Truth (some "false") false

/-- **What a value means under a key**, if it is allowed. -/
inductive Means : Key → Option String → Setting → Prop where
  | deduplicate {value : Option String} {on : Bool} (h : Truth value on) :
    Means .deduplicate value (.deduplicate on)
  | positional : Means .capturePolicy (some "positional") (.policy .positional)
  | identity : Means .capturePolicy (some "identity") (.policy .identity)
  | maxDepth {text : String} {n : Nat} (h : Decimal.Numeral text.toList n) (positive : 1 ≤ n)
    (fits : n < UInt64.size) : Means .maxDepth (some text) (.maxDepth n)
  | noteFolded {value : Option String} {on : Bool} (h : Truth value on) :
    Means .noteFolded value (.noteFolded on)
  | noteMethods {value : Option String} {on : Bool} (h : Truth value on) :
    Means .noteMethods value (.noteMethods on)
  | trace {value : Option String} {on : Bool} (h : Truth value on) :
    Means .trace value (.trace on)

theorem truth?_eq_some_iff {on : Bool} : truth? value = some on ↔ Truth value on := by
  constructor
  · intro h
    unfold truth? at h
    split at h <;> cases h
    · exact .bare
    · exact .on
    · exact .off
  · rintro (_ | _ | _) <;> rfl

theorem policy?_eq_some_iff {p : CapturePolicy} :
    policy? value = some p ↔ Means .capturePolicy value (.policy p) := by
  constructor
  · intro h
    unfold policy? at h
    split at h <;> cases h
    · exact .positional
    · exact .identity
  · rintro (_ | _) <;> rfl

theorem depth?_eq_some_iff {n : Nat} :
    depth? value = some n ↔ Means .maxDepth value (.maxDepth n) := by
  rw [depth?, Option.filter_eq_some_iff, Decimal.ofSigned?_eq_some_iff, decide_eq_true_iff]
  constructor
  · rintro ⟨h, positive, fits⟩
    cases value with
    | none =>
      -- a depth that is not given has no digits
      cases h
      contradiction
    | some text => exact .maxDepth h positive fits
  · intro h
    cases h with
    | maxDepth h positive fits => exact ⟨h, positive, fits⟩

/-- The values that a key allows are those that mean something under it. -/
theorem Key.setting?_eq_some_iff : k.setting? value = some v ↔ Means k value v := by
  constructor
  · intro h
    cases k with
    | deduplicate | noteFolded | noteMethods | trace =>
      obtain ⟨on, hon, rfl⟩ := Option.map_eq_some_iff.1 h
      constructor
      exact truth?_eq_some_iff.1 hon
    | capturePolicy =>
      obtain ⟨p, hp, rfl⟩ := Option.map_eq_some_iff.1 h
      exact policy?_eq_some_iff.1 hp
    | maxDepth =>
      obtain ⟨n, hn, rfl⟩ := Option.map_eq_some_iff.1 h
      exact depth?_eq_some_iff.1 hn
  · intro h
    cases h with
    | deduplicate h | noteFolded h | noteMethods h | trace h =>
      exact Option.map_eq_some_iff.2 ⟨_, truth?_eq_some_iff.2 h, rfl⟩
    | positional | identity => rfl
    | maxDepth h positive fits =>
      exact Option.map_eq_some_iff.2
        ⟨_, depth?_eq_some_iff.2 (.maxDepth h positive fits), rfl⟩

/-- A value under a key is for the field of that key. -/
theorem Means.key_eq (h : Means k value v) : v.key = k := by
  cases h <;> rfl

/-! ## What a string says -/

/-- A string that is read as a switch with a certain key. -/
def HasKey (s : String) (k : Key) : Prop :=
  ∃ w, Reads s w ∧ w.key = k.text

/-- **A switch that gives a value to a setting.** -/
def Gives (s : String) (k : Key) (v : Setting) : Prop :=
  ∃ w, Reads s w ∧ w.key = k.text ∧ Means k w.value v

/-- **A switch that is refused**: its key is one of ours, and its value means
nothing under that key. The error names the key and repeats the value, which is
empty if none was given. -/
def Refused (s : String) (e : OptionsError) : Prop :=
  ∃ w, Reads s w ∧ w.key = e.key.text ∧ (∀ v, ¬ Means e.key w.value v) ∧
    e.value = w.value.getD ""

/-- A key is found by its text. -/
theorem Key.ofText?_eq_some_iff {t : String} : ofText? t = some k ↔ t = k.text := by
  constructor
  · intro h
    have htext := List.find?_some h
    exact (eq_of_beq htext).symm
  · rintro rfl
    exact ofText?_text k

theorem hasKey_iff : HasKey s k ↔ Key.ofText? (ofString s).key = some k := by
  rw [Key.ofText?_eq_some_iff]
  constructor
  · rintro ⟨w, hread, hkey⟩
    rwa [ofString_eq_iff.2 hread]
  · intro hkey
    exact ⟨_, ofString_eq_iff.1 rfl, hkey⟩

instance (s : String) (k : Key) : Decidable (HasKey s k) := decidable_of_iff _ hasKey_iff.symm

theorem gives_iff :
    Gives s k v ↔ HasKey s k ∧ k.setting? (ofString s).value = some v := by
  rw [Key.setting?_eq_some_iff]
  constructor
  · rintro ⟨w, hread, hkey, hmeans⟩
    exact ⟨⟨w, hread, hkey⟩, by rwa [ofString_eq_iff.2 hread]⟩
  · rintro ⟨⟨w, hread, hkey⟩, hmeans⟩
    exact ⟨w, hread, hkey, by rwa [← ofString_eq_iff.2 hread]⟩

theorem refused_iff {e : OptionsError} :
    Refused s e ↔ HasKey s e.key ∧ e.key.setting? (ofString s).value = none ∧
      e.value = (ofString s).value.getD "" := by
  rw [Option.eq_none_iff_forall_ne_some]
  simp only [ne_eq, Key.setting?_eq_some_iff]
  constructor
  · rintro ⟨w, hread, hkey, hnone, hvalue⟩
    exact ⟨⟨w, hread, hkey⟩, by rwa [ofString_eq_iff.2 hread], by rwa [ofString_eq_iff.2 hread]⟩
  · rintro ⟨⟨w, hread, hkey⟩, hnone, hvalue⟩
    rw [ofString_eq_iff.2 hread] at hnone hvalue
    exact ⟨w, hread, hkey, hnone, hvalue⟩

end Switch

end LambdaSharing
