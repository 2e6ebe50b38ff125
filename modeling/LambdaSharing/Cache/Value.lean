/-!
# Cached values

A plan can be saved and read back in a later run. What is saved is a `Value`:
a tree of numbers, strings, lists and records such as any data format offers.
Reading is strict where the data could mean something else (a number must be
an integer in the range of its type, a variant must be the only key of its
record) and lenient where it could not: a record may have fields that nobody
asks for, in any order.

`Cached` is the class of types with a cached form. `LawfulCached` adds that
what was written is read back as itself. The instances for the types of this
library are in the modules after this one; each follows from the instances of
its parts.
-/

namespace LambdaSharing

/-- A tree of data. -/
inductive Cache.Value where
  | null
  | bool (value : Bool)
  /-- A number that is written as an integer. -/
  | int (value : Int)
  /-- Any other number, as it is written. -/
  | real (text : String)
  | string (value : String)
  | list (values : List Cache.Value)
  /-- A record: its fields by name. -/
  | record (fields : List (String × Cache.Value))

/-- Types with a cached form. -/
class Cached (α : Type) where
  /-- The cached form of a value. -/
  encode : α → Cache.Value
  /-- The value of a cached form, if it is one. -/
  decode : Cache.Value → Option α

/-- What was written is read back as itself. -/
class LawfulCached (α : Type) [Cached α] : Prop where
  decode_encode (x : α) : Cached.decode (Cached.encode x) = some x

export Cached (encode decode)

attribute [simp] LawfulCached.decode_encode

namespace Cache

variable {α β : Type}

/-! ## Numbers and text -/

/-- The natural number below a bound that a value is. -/
def natBelow? (bound : Nat) : Value → Option Nat
  | .int (.ofNat n) => if n < bound then some n else none
  | _ => none

theorem natBelow?_int {bound n : Nat} (h : n < bound) :
    natBelow? bound (.int (Int.ofNat n)) = some n := if_pos h

instance : Cached UInt16 where
  encode n := .int n.toNat
  decode v := (natBelow? UInt16.size v).map UInt16.ofNat

instance : LawfulCached UInt16 where
  decode_encode n := by
    change (natBelow? UInt16.size (.int (Int.ofNat n.toNat))).map UInt16.ofNat = some n
    rw [natBelow?_int n.toNat_lt]
    simp

instance : Cached UInt32 where
  encode n := .int n.toNat
  decode v := (natBelow? UInt32.size v).map UInt32.ofNat

instance : LawfulCached UInt32 where
  decode_encode n := by
    change (natBelow? UInt32.size (.int (Int.ofNat n.toNat))).map UInt32.ofNat = some n
    rw [natBelow?_int n.toNat_lt]
    simp

instance : Cached UInt64 where
  encode n := .int n.toNat
  decode v := (natBelow? UInt64.size v).map UInt64.ofNat

instance : LawfulCached UInt64 where
  decode_encode n := by
    change (natBelow? UInt64.size (.int (Int.ofNat n.toNat))).map UInt64.ofNat = some n
    rw [natBelow?_int n.toNat_lt]
    simp

instance : Cached Int64 where
  encode n := .int n.toInt
  decode
    | .int n =>
      if Int64.minValue.toInt ≤ n ∧ n ≤ Int64.maxValue.toInt then some (Int64.ofInt n) else none
    | _ => none

instance : LawfulCached Int64 where
  decode_encode n := by
    change (if Int64.minValue.toInt ≤ n.toInt ∧ n.toInt ≤ Int64.maxValue.toInt
      then some (Int64.ofInt n.toInt) else none) = some n
    rw [if_pos ⟨n.minValue_le_toInt, n.toInt_le⟩, Int64.ofInt_toInt]

instance : Cached Bool where
  encode b := .bool b
  decode
    | .bool b => some b
    | _ => none

instance : LawfulCached Bool := ⟨fun _ => rfl⟩

/-- A character is cached as a string of one character. -/
instance : Cached Char where
  encode c := .string (String.singleton c)
  decode
    | .string s =>
      match s.toList with
      | [c] => some c
      | _ => none
    | _ => none

instance : LawfulCached Char where
  decode_encode c := by simp [encode, decode]

/-! ## Lists and records -/

instance [Cached α] : Cached (List α) where
  encode xs := .list (xs.map encode)
  decode
    | .list vs => vs.mapM decode
    | _ => none

instance [Cached α] [LawfulCached α] : LawfulCached (List α) where
  decode_encode xs := by
    change (xs.map encode).mapM decode = some xs
    induction xs with
    | nil => rfl
    | cons x xs ih => simp [ih]

instance [Cached α] : Cached (Array α) where
  encode xs := encode xs.toList
  decode v := (decode v : Option (List α)).map List.toArray

instance [Cached α] [LawfulCached α] : LawfulCached (Array α) where
  decode_encode xs := by
    change (decode (encode xs.toList)).map List.toArray = some xs
    simp

/-- The value of a field of a record. -/
def Value.field? (v : Value) (name : String) : Option Value :=
  match v with
  | .record fields => fields.lookup name
  | _ => none

/-- The value of a field, read as a given type. A field that is not there
cannot be read. -/
def field [Cached α] (v : Value) (name : String) : Option α := (v.field? name).bind decode

@[simp] theorem field_record_cons [Cached α] (name key : String) (v : Value)
    (fields : List (String × Value)) :
    (field (.record ((key, v) :: fields)) name : Option α) =
      if name = key then decode v else field (.record fields) name := by
  simp only [field, Value.field?, List.lookup_cons]
  by_cases h : name = key
  · simp [h]
  · simp [h, beq_eq_false_iff_ne.2 h]

/-! ## Variants -/

/-- A variant of a sum type: its name and its content, if it has any. A
variant without content may be written as its name alone, and one with
content is the only key of a record. -/
def Value.variant? : Value → Option (String × Value)
  | .string name => some (name, .null)
  | .record [(name, content)] => some (name, content)
  | _ => none

/-- A variant without content. -/
def Value.unit? : Value → Option Unit
  | .null => some ()
  | _ => none

end Cache

/-! ## Types made from others -/

section Via

variable {α β : Type} [Cached β] (f : α → β) (g : β → α)

/-- A type is cached like another one that can stand for it. -/
@[reducible] def Cached.via : Cached α where
  encode x := encode (f x)
  decode v := (decode v : Option β).map g

theorem LawfulCached.via [LawfulCached β] (h : ∀ x, g (f x) = x) :
    @LawfulCached α (Cached.via f g) :=
  @LawfulCached.mk α (Cached.via f g) fun x => by
    change (decode (encode (f x))).map g = some x
    simp [h]

end Via

end LambdaSharing
