import LambdaSharing.Cache.Value
import LambdaSharing.Node

/-!
# Cached identifiers and payloads

Identifiers are cached as their numbers, an absent child as the number that
stands for it. Ranges and spans are records. Operators, literals and slots
are variants under their names.
-/

namespace LambdaSharing

open Cache

/-! ## Identifiers -/

instance : Cached TypeId := .via TypeId.index TypeId.mk
instance : LawfulCached TypeId := .via TypeId.index TypeId.mk fun _ => rfl

instance : Cached SymbolId := .via SymbolId.index SymbolId.mk
instance : LawfulCached SymbolId := .via SymbolId.index SymbolId.mk fun _ => rfl

instance : Cached Name := .via Name.index Name.mk
instance : LawfulCached Name := .via Name.index Name.mk fun _ => rfl

instance : Cached LambdaId := .via LambdaId.index LambdaId.mk
instance : LawfulCached LambdaId := .via LambdaId.index LambdaId.mk fun _ => rfl

instance : Cached ClassId := .via ClassId.index ClassId.mk
instance : LawfulCached ClassId := .via ClassId.index ClassId.mk fun _ => rfl

instance : Cached Child := .via Child.word Child.ofWord
instance : LawfulCached Child := .via Child.word Child.ofWord Child.ofWord_word

/-! ## Ranges and spans -/

/-- The cached form of a range. -/
def NodeRange.toCache (r : NodeRange) : Value :=
  .record [("start", encode r.start), ("len", encode r.len)]

/-- The range of a cached form. -/
def NodeRange.ofCache? (v : Value) : Option NodeRange := do
  return ⟨← field v "start", ← field v "len"⟩

instance : Cached NodeRange := ⟨NodeRange.toCache, NodeRange.ofCache?⟩

instance : LawfulCached NodeRange where
  decode_encode r := by
    change NodeRange.ofCache? r.toCache = some r
    simp [NodeRange.ofCache?, NodeRange.toCache]

/-- The cached form of a span. -/
def Span.toCache (s : Span) : Value :=
  .record [("start", encode s.start), ("end", encode s.stop)]

/-- The span of a cached form. -/
def Span.ofCache? (v : Value) : Option Span := do
  return ⟨← field v "start", ← field v "end"⟩

instance : Cached Span := ⟨Span.toCache, Span.ofCache?⟩

instance : LawfulCached Span where
  decode_encode s := by
    change Span.ofCache? s.toCache = some s
    simp [Span.ofCache?, Span.toCache]

/-! ## Operators -/

/-- The operator of a cached form. -/
def BinaryOp.ofCache? (v : Value) : Option BinaryOp := do
  let (name, content) ← v.variant?
  content.unit?
  BinaryOp.ofName? name

instance : Cached BinaryOp := ⟨fun op => .string op.name, BinaryOp.ofCache?⟩

instance : LawfulCached BinaryOp where
  decode_encode op := by
    change BinaryOp.ofCache? (.string op.name) = some op
    simp [BinaryOp.ofCache?, Value.variant?, Value.unit?]

/-- The operator of a cached form. -/
def UnaryOp.ofCache? (v : Value) : Option UnaryOp := do
  let (name, content) ← v.variant?
  content.unit?
  UnaryOp.ofName? name

instance : Cached UnaryOp := ⟨fun op => .string op.name, UnaryOp.ofCache?⟩

instance : LawfulCached UnaryOp where
  decode_encode op := by
    change UnaryOp.ofCache? (.string op.name) = some op
    simp [UnaryOp.ofCache?, Value.variant?, Value.unit?]

/-! ## Literals and slots -/

namespace Literal

/-- The cached form of a literal. -/
def toCache : Literal → Value
  | int value => .record [("Int", encode value)]
  | float bits => .record [("Float", encode bits)]
  | bool value => .record [("Bool", encode value)]
  | char value => .record [("Char", encode value)]
  | str value => .record [("Str", encode value)]
  | null => .string "Null"

/-- The literal of a cached form. -/
def ofCache? (v : Value) : Option Literal := do
  match ← v.variant? with
  | ("Int", content) => return int (← decode content)
  | ("Float", content) => return float (← decode content)
  | ("Bool", content) => return bool (← decode content)
  | ("Char", content) => return char (← decode content)
  | ("Str", content) => return str (← decode content)
  | ("Null", content) =>
    content.unit?
    return null
  | _ => none

instance : Cached Literal := ⟨toCache, ofCache?⟩

instance : LawfulCached Literal where
  decode_encode l := by
    change ofCache? l.toCache = some l
    cases l <;> simp [ofCache?, toCache, Value.variant?, Value.unit?]

end Literal

namespace Slot

/-- The cached form of a slot. -/
def toCache : Slot → Value
  | .param i => .record [("Param", encode i)]
  | .capture i => .record [("Capture", encode i)]
  | .local i => .record [("Local", encode i)]
  | .symbol s => .record [("Symbol", encode s)]

/-- The slot of a cached form. -/
def ofCache? (v : Value) : Option Slot := do
  match ← v.variant? with
  | ("Param", content) => return .param (← decode content)
  | ("Capture", content) => return .capture (← decode content)
  | ("Local", content) => return .local (← decode content)
  | ("Symbol", content) => return .symbol (← decode content)
  | _ => none

instance : Cached Slot := ⟨toCache, ofCache?⟩

instance : LawfulCached Slot where
  decode_encode s := by
    change ofCache? s.toCache = some s
    cases s <;> simp [ofCache?, toCache, Value.variant?]

end Slot

end LambdaSharing
