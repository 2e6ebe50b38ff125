import Std.Data.ExtTreeMap.Lemmas
import LambdaSharing.Ident

/-!
# Interned strings

Owner names, literal contents and generated method names are strings, and
everything else holds them as a `Name`. An `Interner` is the table behind the
names: strings are appended and never removed, and a name is the position of
its string. The empty string stands first in every table, so `Name.empty`
means the same everywhere, and each string stands in a table once, so that
names and strings correspond one to one (`lookup_of_find?`, `find?_lookup`).

A table is read both ways, so it holds its strings twice: by name in an
array, and by string in an `Interner.Index` of that array. The two are kept
together, as an index is one of a certain array and says where a string
stands in that array; each new string goes into both.

A `Name` is a word, so the table has a capacity. `intern` reports a full
table as `InternError.overflow` and leaves it as it was.
-/

namespace LambdaSharing

/-- Why a string got no name. -/
inductive InternError where
  /-- All names are taken. -/
  | overflow (count : Nat)
deriving DecidableEq

/-- The error as it is reported. -/
def InternError.message : InternError → String
  | .overflow count =>
    "string interner exceeded capacity: " ++ toString count
      ++ " strings, max is 4294967295"

namespace Interner

/-- The numbers of the strings of an array, by string. -/
class Index (strings : Array String) where
  /-- The number of each string. -/
  numbers : Std.ExtTreeMap String UInt32
  /-- It is the place where the string first stands. -/
  getElem?_numbers : ∀ s, numbers[s]? = (strings.idxOf? s).map UInt32.ofNat

namespace Index

variable {strings : Array String}

/-- An array has only one index, however it came about. -/
instance : Subsingleton (Index strings) where
  allEq i j := by
    obtain ⟨m, hm⟩ := i
    obtain ⟨n, hn⟩ := j
    have : m = n := Std.ExtTreeMap.ext_getElem? fun s => (hm s).trans (hn s).symm
    subst this
    rfl

instance : DecidableEq (Index strings) := fun i j => .isTrue (Subsingleton.elim i j)

/-- The numbers of the strings of a list, of which the first has number `n`. -/
def numbersFrom (n : Nat) : List String → Std.ExtTreeMap String UInt32
  | [] => ∅
  | s :: rest => (numbersFrom (n + 1) rest).insert s (UInt32.ofNat n)

/-- Of a string that stands in a list more than once the first place counts. -/
theorem getElem?_numbersFrom (n : Nat) (ss : List String) (s : String) :
    (numbersFrom n ss)[s]? = (ss.idxOf? s).map fun i => UInt32.ofNat (i + n) := by
  induction ss generalizing n with
  | nil => simp [numbersFrom]
  | cons first rest ih =>
    rw [numbersFrom, Std.ExtTreeMap.getElem?_insert, List.idxOf?_cons, ih]
    by_cases h : first = s
    · simp [h]
    · simp only [h, Std.compare_eq_iff_eq, beq_iff_eq, if_false, Option.map_map]
      congr 1
      funext i
      exact congrArg UInt32.ofNat (Nat.succ_add_eq_add_succ i n).symm

/-- The index that is made by going through an array once. -/
instance ofStrings (strings : Array String) : Index strings where
  numbers := numbersFrom 0 strings.toList
  getElem?_numbers s := by
    rw [getElem?_numbersFrom, ← List.idxOf?_toArray]
    rfl

/-- The index after a string that was not there is appended. -/
@[reducible]
def push (index : Index strings) {s : String} (fresh : s ∉ strings) :
    Index (strings.push s) where
  numbers := index.numbers.insert s (UInt32.ofNat strings.size)
  getElem?_numbers u := by
    rw [Std.ExtTreeMap.getElem?_insert, index.getElem?_numbers]
    obtain ⟨ss⟩ := strings
    simp only [List.push_toArray, List.idxOf?_toArray, List.idxOf?, List.findIdx?_append]
    by_cases h : s = u
    · subst h
      have hnone : ss.findIdx? (· == s) = none :=
        List.idxOf?_eq_none_iff.2 (by simpa using fresh)
      simp [hnone]
    · simp [h, List.findIdx?_cons]

end Index

end Interner

/-- A table of distinct strings, the empty one first. -/
structure Interner where
  /-- The strings, by name. -/
  strings : Array String
  /-- The names, by string. -/
  [index : Interner.Index strings]
  /-- The empty string stands first. -/
  first : strings[0]? = some ""
  /-- Each string stands in the table once. -/
  distinct : strings.toList.Nodup
  /-- There is a name for each of them. -/
  bounded : strings.size ≤ UInt32.size
deriving DecidableEq

namespace Interner

/-- The table that holds the empty string only. -/
def new : Interner := ⟨#[""], rfl, by simp, by decide⟩

instance : Inhabited Interner := ⟨new⟩

/-- How many strings have a name. -/
def size (t : Interner) : Nat := t.strings.size

/-- Whether nothing but the empty string has a name. -/
def isEmpty (t : Interner) : Bool := t.size ≤ 1

/-- The name of a string that has one. -/
def find? (t : Interner) (s : String) : Option Name :=
  t.index.numbers[s]?.map Name.mk

/-- The string of a name; a name that was never given out has the empty
one. -/
def lookup (t : Interner) (name : Name) : String :=
  t.strings.getD name.index.toNat ""

/-- A string has a name if it stands in the table. -/
theorem find?_eq_none_iff {t : Interner} {s : String} : t.find? s = none ↔ s ∉ t.strings := by
  simp [find?, t.index.getElem?_numbers]

/-- The table with one more string, which stands last. -/
def push (t : Interner) (s : String) (fresh : s ∉ t.strings) (room : t.size < UInt32.size) :
    Interner where
  strings := t.strings.push s
  index := t.index.push fresh
  first := by
    have := t.first
    grind
  distinct := by
    have := t.distinct
    rw [Array.toList_push, List.nodup_append]
    grind
  bounded := by
    rw [Array.size_push]
    exact room

/-- The name of a string, which is given out now if the string has none. -/
def intern (t : Interner) (s : String) : Except InternError Name × Interner :=
  match h : t.find? s with
  | some name => (.ok name, t)
  | none =>
    if room : t.size < UInt32.size then
      (.ok ⟨UInt32.ofNat t.size⟩, t.push s (find?_eq_none_iff.1 h) room)
    else
      (.error (.overflow t.size), t)

/-- The empty string has its fixed name in every table. -/
@[simp] theorem lookup_empty (t : Interner) : t.lookup .empty = "" := by
  simp [lookup, Name.empty, t.first]

/-- A string has the name of its place, and no other. -/
theorem find?_eq_some_iff {t : Interner} {s : String} {name : Name} :
    t.find? s = some name ↔ t.strings[name.index.toNat]? = some s := by
  have hl (n : Nat) : t.strings.idxOf? s = some n ↔ t.strings[n]? = some s := by
    rw [← t.strings.toArray_toList, List.idxOf?_toArray, List.idxOf?_eq_some_iff,
      List.getElem?_toArray, List.getElem?_eq_some_iff]
    constructor
    · rintro ⟨hn, hs, _⟩
      exact ⟨hn, hs⟩
    · rintro ⟨hn, hs⟩
      exact ⟨hn, hs, fun j hj he =>
        List.pairwise_iff_getElem.1 t.distinct j n _ hn hj (he.trans hs.symm)⟩
  have hb (n : Nat) (h : t.strings[n]? = some s) : n < UInt32.size :=
    Nat.lt_of_lt_of_le (Array.getElem?_eq_some_iff.1 h).1 t.bounded
  rw [find?, t.index.getElem?_numbers, Option.map_map, Option.map_eq_some_iff]
  constructor
  · rintro ⟨n, hn, rfl⟩
    have hn := (hl n).1 hn
    show t.strings[(UInt32.ofNat n).toNat]? = some s
    rw [UInt32.toNat_ofNat_of_lt' (hb n hn)]
    exact hn
  · intro h
    exact ⟨name.index.toNat, (hl _).2 h, by simp⟩

/-- A string is looked up by its name. -/
theorem lookup_of_find? {t : Interner} {s : String} {name : Name} (h : t.find? s = some name) :
    t.lookup name = s := by
  simp [lookup, find?_eq_some_iff.1 h]

/-- A name that was given out is found by its string. -/
theorem find?_lookup {t : Interner} {name : Name} (h : name.index.toNat < t.size) :
    t.find? (t.lookup name) = some name := by
  rw [find?_eq_some_iff]
  simp [lookup, Array.getElem?_eq_getElem h]

/-- Interning a string that has a name changes nothing. -/
theorem intern_of_find? {t : Interner} {s : String} {name : Name}
    (h : t.find? s = some name) : t.intern s = (.ok name, t) := by
  rw [intern]
  split <;> simp_all

/-- Interning a string that has no name appends it to a table with room for
it. -/
theorem intern_of_find?_eq_none {t : Interner} {s : String} (h : t.find? s = none)
    (room : t.size < UInt32.size) :
    t.intern s = (.ok ⟨UInt32.ofNat t.size⟩, t.push s (find?_eq_none_iff.1 h) room) := by
  rw [intern]
  split <;> simp_all

end Interner

end LambdaSharing
