/-!
# Identifiers

A compilation unit is flat: nodes, lambdas, types, declarations and strings
are all named by 32-bit words, and every reference between them is such a
word. Each kind of word gets a type of its own here, so that the position of
a node cannot be mistaken for the number of a type.

Two of them deserve a remark. A `NodeId` is a position in an arena and means
nothing outside it; fingerprints and comparisons therefore never look at one
directly, only at the node it leads to. And the largest word is no position
that a body could mention: it is the written form of a child that is absent.
`NodeId` excludes it by a proof field, and a child that may be missing is a
`Child`, that is, an `Option NodeId`.
-/

namespace LambdaSharing

/-- The number of a type, handed out by the type checker. Two types are the
same exactly when their numbers are. -/
structure TypeId where
  /-- The number itself. -/
  index : UInt32
deriving DecidableEq

namespace TypeId

/-- The names of the built-in types, in the order of their numbers. -/
def builtinNames : List String :=
  ["INT", "LONG", "FLOAT", "DOUBLE", "BOOL", "CHAR", "BYTE", "SHORT", "VOID",
    "STRING", "OBJECT", "NULL"]

/-- The first number the type checker may hand out; all below it are
built-in. -/
def firstCompound : Nat := 12

/-- The built-in types have numbers `0` to `firstCompound - 1`. -/
theorem length_builtinNames : builtinNames.length = firstCompound := rfl

/-- The type of `int` values. -/
def int : TypeId := ⟨0⟩
/-- The type of `long` values. -/
def long : TypeId := ⟨1⟩
/-- The type of truth values. -/
def bool : TypeId := ⟨4⟩
/-- The type of statements, which have no value. -/
def void : TypeId := ⟨8⟩
/-- The type of strings. -/
def string : TypeId := ⟨9⟩
/-- The type all objects share. -/
def object : TypeId := ⟨10⟩

/-- An unknown type is taken for the most general one. -/
instance : Inhabited TypeId := ⟨object⟩

/-- Whether the type is one of the built-in ones. -/
def isBuiltin (t : TypeId) : Bool := t.index.toNat < firstCompound

/-- How a type is shown in messages: by name if it is built-in, else by
number. -/
def text (t : TypeId) : String :=
  match builtinNames[t.index.toNat]? with
  | some name => "TypeId::" ++ name
  | none => "TypeId(" ++ toString t.index.toNat ++ ")"

end TypeId

/-- A resolved declaration: a method, a constructor, a field, a global, or
the outer variable that a lambda captures. Two references denote the same
declaration exactly when their numbers agree; nothing renames a symbol. -/
structure SymbolId where
  /-- The number itself. -/
  index : UInt32
deriving DecidableEq, Inhabited

/-- How a symbol is shown in messages. -/
def SymbolId.text (s : SymbolId) : String :=
  "SymbolId(" ++ toString s.index.toNat ++ ")"

/-- An interned string: its position in the table of an `Interner`. -/
structure Name where
  /-- The position itself. -/
  index : UInt32
deriving DecidableEq

namespace Name

/-- The empty string, which every table holds first. -/
def empty : Name := ⟨0⟩

instance : Inhabited Name := ⟨empty⟩

/-- Names are ordered by when they were given out. -/
instance : Ord Name := ⟨compareOn Name.index⟩

instance : Std.TransOrd Name := inferInstanceAs (Std.TransCmp (compareOn Name.index))

instance : Std.LawfulEqOrd Name where
  eq_of_compare {n m} h :=
    congrArg Name.mk (Std.LawfulEqOrd.eq_of_compare (a := n.index) (b := m.index) h)

/-- How a name is shown in messages. -/
def text (n : Name) : String := "Name(" ++ toString n.index.toNat ++ ")"

end Name

/-- The position of a node in an arena. -/
structure NodeId where
  /-- The position itself. -/
  index : UInt32
  /-- The largest word is no position: it stands for an absent child. -/
  isPosition : index ≠ 0xffffffff
deriving DecidableEq

/-- The position `n`, if there is a node position that large. -/
def NodeId.ofNat? (n : Nat) : Option NodeId :=
  if h : n < 0xffffffff then
    some ⟨UInt32.ofNatLT n (Nat.lt_trans h (by decide)), by
      intro e
      have := congrArg UInt32.toNat e
      simp at this
      omega⟩
  else
    none

/-- A place where a node may have a child: the child's position, or nothing.
Whether nothing is allowed there depends on the parent. -/
abbrev Child := Option NodeId

namespace Child

/-- The written form of an absent child. -/
def absentWord : UInt32 := 0xffffffff

/-- The written form of a child. -/
def word : Child → UInt32
  | none => absentWord
  | some id => id.index

/-- The child that a word stands for. -/
def ofWord (w : UInt32) : Child :=
  if h : w ≠ 0xffffffff then some ⟨w, h⟩ else none

@[simp] theorem ofWord_word (c : Child) : ofWord c.word = c := by
  cases c with
  | none => rfl
  | some id => simp [word, ofWord, id.isPosition]

@[simp] theorem word_ofWord (w : UInt32) : (ofWord w).word = w := by
  unfold ofWord
  split
  · rfl
  · rename_i h
    simp only [Decidable.not_not] at h
    simp [word, absentWord, h]

/-- How a child is shown in messages. -/
def text : Child → String
  | none => "NodeId::INVALID"
  | some id => "NodeId(" ++ toString id.index.toNat ++ ")"

end Child

/-- How a node position is shown in messages. -/
def NodeId.text (id : NodeId) : String := Child.text (some id)

/-- The number of a lambda in its arena, in order of registration. -/
structure LambdaId where
  /-- The number itself. -/
  index : UInt32
deriving DecidableEq, Inhabited

namespace LambdaId

/-- Lambdas are ordered by registration. -/
instance : Ord LambdaId := ⟨compareOn LambdaId.index⟩

instance : Std.TransOrd LambdaId := inferInstanceAs (Std.TransCmp (compareOn LambdaId.index))

instance : Std.LawfulEqOrd LambdaId where
  eq_of_compare {l r} h :=
    congrArg LambdaId.mk (Std.LawfulEqOrd.eq_of_compare (a := l.index) (b := r.index) h)

/-- How a lambda is shown to a reader of messages. -/
def text (l : LambdaId) : String := "#" ++ toString l.index.toNat

/-- How a lambda's number is shown where its kind matters. -/
def debugText (l : LambdaId) : String := "LambdaId(" ++ toString l.index.toNat ++ ")"

end LambdaId

/-- The number of an equivalence class, in order of creation. -/
structure ClassId where
  /-- The number itself. -/
  index : UInt32
deriving DecidableEq, Inhabited

/-- How a class is shown in messages. -/
def ClassId.text (c : ClassId) : String := "ClassId(" ++ toString c.index.toNat ++ ")"

/-- A run of consecutive entries in the child lists of an arena. -/
structure NodeRange where
  /-- The first entry. -/
  start : UInt32
  /-- How many entries. -/
  len : UInt16
deriving DecidableEq

namespace NodeRange

/-- The range of no entries. -/
def empty : NodeRange := ⟨0, 0⟩

instance : Inhabited NodeRange := ⟨empty⟩

/-- Whether the range has no entries, wherever it starts. -/
def isEmpty (r : NodeRange) : Bool := r.len == 0

/-- How a range is shown in messages: the first entry and the one after the
last. -/
def text (r : NodeRange) : String :=
  "NodeRange(" ++ toString r.start.toNat ++ ".."
    ++ toString (r.start.toNat + r.len.toNat) ++ ")"

end NodeRange

/-- A stretch of source text, kept for error reports only: it takes part in
no fingerprint and no comparison. -/
structure Span where
  /-- Where the stretch begins. -/
  start : UInt32
  /-- The position just behind it. -/
  stop : UInt32
deriving DecidableEq

namespace Span

/-- The span of generated code, which has no source text. -/
def none : Span := ⟨0, 0⟩

instance : Inhabited Span := ⟨none⟩

/-- How a span is shown in messages. -/
def text (s : Span) : String := toString s.start.toNat ++ ".." ++ toString s.stop.toNat

end Span

end LambdaSharing
