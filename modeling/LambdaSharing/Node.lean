import LambdaSharing.Ident
import LambdaSharing.Operator

/-!
# Nodes of a lambda body

The body of a lambda is a tree of nodes. `NodeKind` lists the shapes a node
can have; nothing else is ever built. Everything a node says is one of two
things: a **child**, another node, or **payload**, which is everything that
is not a child. Payload is compared and fingerprinted by identity, children
by what they lead to, and so is the node's type, which is kept beside the
kind and not in it.

The functions at the end take a kind apart along this line: `tag` forgets
everything but the shape, `payload` is what is not a child, `fixedChildren`
are the child positions the shape itself has, and `range?` is the list of
further children, for the shapes that have one. Tag, payload and children
determine the kind, so a walk over bodies reads nodes through these four
only and does not spell out the twenty shapes again.
-/

namespace LambdaSharing

/-- A literal value. Its type is the type of the node, so that `1` as an
`int` and `1` as a `long` are one literal at two types. -/
inductive Literal where
  /-- A whole number. -/
  | int (value : Int64)
  /-- A floating-point number by its bits, so that equality is identity. -/
  | float (bits : UInt64)
  | bool (value : Bool)
  | char (value : Char)
  /-- A string, interned. -/
  | str (value : Name)
  | null
deriving DecidableEq

/-- The literal of a floating-point value. -/
def Literal.ofFloat (x : Float) : Literal := .float x.toBits

/-- A resolved variable. Parameters, captures and locals are numbered by
position in their lambda, so renaming one changes no slot. -/
inductive Slot where
  /-- A declared parameter of the enclosing lambda. -/
  | param (index : UInt32)
  /-- A captured outer variable, by its place in the capture list. -/
  | capture (index : UInt32)
  /-- A local variable of the body, in order of declaration. -/
  | local (index : UInt32)
  /-- Any other declaration; these are never renamed. -/
  | symbol (symbol : SymbolId)
deriving DecidableEq

namespace Slot

/-- The name of the slot's kind. -/
def kindName : Slot → String
  | .param _ => "Param"
  | .capture _ => "Capture"
  | .local _ => "Local"
  | .symbol _ => "Symbol"

/-- The number of the slot's kind. -/
def kindCode : Slot → Nat
  | .param _ => 0
  | .capture _ => 1
  | .local _ => 2
  | .symbol _ => 3

/-- The number of the slot within its kind. -/
def number : Slot → UInt32
  | .param i | .capture i | .local i => i
  | .symbol s => s.index

/-- How a slot is shown in messages. -/
def text : Slot → String
  | .symbol s => "Symbol(" ++ s.text ++ ")"
  | s => s.kindName ++ "(" ++ toString s.number.toNat ++ ")"

end Slot

/-- The shapes of expressions and statements in a body. -/
inductive NodeKind where
  | literal (value : Literal)
  | var (slot : Slot)
  /-- The enclosing instance. -/
  | this
  /-- Member access. -/
  | field (receiver : Child) (field : SymbolId)
  /-- Array access. -/
  | index (receiver index : Child)
  /-- A method call; an unqualified one has no receiver. -/
  | invoke (receiver : Child) (method : SymbolId) (args : NodeRange)
  /-- Creation of an instance by a constructor. -/
  | new (ctor : SymbolId) (args : NodeRange)
  /-- A nested lambda. `captures` are expressions of the enclosing body, one
  for each variable that the nested lambda captures. -/
  | closure (lambda : LambdaId) (captures : NodeRange)
  /-- A cast to the type of the node. -/
  | cast (operand : Child)
  /-- A type test. -/
  | instanceOf (operand : Child) (target : TypeId)
  | unary (op : UnaryOp) (operand : Child)
  | binary (op : BinaryOp) (left right : Child)
  /-- An assignment, with an operator if it is a compound one. -/
  | assign (op : Option BinaryOp) (target value : Child)
  /-- The conditional expression. -/
  | conditional (cond thenBranch elseBranch : Child)
  | block (stmts : NodeRange)
  /-- The declaration of a local variable, perhaps without initial value. -/
  | declare (slot : UInt32) (type : TypeId) (init : Child)
  /-- The conditional statement, perhaps without second branch. -/
  | branch (cond thenBranch elseBranch : Child)
  | loop (cond body : Child)
  /-- The return statement, perhaps without value. -/
  | ret (value : Child)
  | throw (value : Child)
deriving DecidableEq

/-- The shape of a node, without anything it holds. -/
inductive NodeTag where
  | literal | var | this | field | index | invoke | new | closure | cast
  | instanceOf | unary | binary | assign | conditional | block | declare
  | branch | loop | ret | throw
deriving DecidableEq

namespace NodeTag

/-- The position of the tag in the enumeration. -/
def code (t : NodeTag) : Nat := t.ctorIdx

/-- The tag's own name. -/
def name : NodeTag → String
  | literal => "Literal" | var => "Var" | this => "This" | field => "Field"
  | index => "Index" | invoke => "Invoke" | new => "New"
  | closure => "Closure" | cast => "Cast" | instanceOf => "InstanceOf"
  | unary => "Unary" | binary => "Binary" | assign => "Assign"
  | conditional => "Conditional" | block => "Block" | declare => "Let"
  | branch => "If" | loop => "While" | ret => "Return" | throw => "Throw"

end NodeTag

/-- Everything a node holds that is neither a child nor its type. -/
inductive Payload where
  /-- The shape says everything. -/
  | none
  | literal (value : Literal)
  | slot (slot : Slot)
  /-- A field, method or constructor. -/
  | symbol (symbol : SymbolId)
  /-- The lambda that a closure creates. -/
  | nested (lambda : LambdaId)
  /-- The type that a test asks for. -/
  | target (type : TypeId)
  | unary (op : UnaryOp)
  | binary (op : BinaryOp)
  | assign (op : Option BinaryOp)
  /-- The local slot that is declared, and its type. -/
  | declaration (slot : UInt32) (type : TypeId)
deriving DecidableEq

namespace NodeKind

/-- The shape of the node. -/
def tag : NodeKind → NodeTag
  | literal _ => .literal
  | var _ => .var
  | this => .this
  | field .. => .field
  | index .. => .index
  | invoke .. => .invoke
  | new .. => .new
  | closure .. => .closure
  | cast _ => .cast
  | instanceOf .. => .instanceOf
  | unary .. => .unary
  | binary .. => .binary
  | assign .. => .assign
  | conditional .. => .conditional
  | block _ => .block
  | declare .. => .declare
  | branch .. => .branch
  | loop .. => .loop
  | ret _ => .ret
  | throw _ => .throw

/-- What the node holds besides its children. -/
def payload : NodeKind → Payload
  | literal value => .literal value
  | var slot => .slot slot
  | field _ symbol | invoke _ symbol _ | new symbol _ => .symbol symbol
  | closure lambda _ => .nested lambda
  | instanceOf _ target => .target target
  | unary op _ => .unary op
  | binary op _ _ => .binary op
  | assign op _ _ => .assign op
  | declare slot type _ => .declaration slot type
  | this | index .. | cast _ | conditional .. | block _ | branch .. | loop ..
  | ret _ | throw _ => .none

/-- The children at the positions that the shape itself has. -/
def fixedChildren : NodeKind → List Child
  | literal _ | var _ | this | new .. | closure .. | block _ => []
  | field c _ | invoke c _ _ | cast c | instanceOf c _ | unary _ c
  | declare _ _ c | ret c | throw c => [c]
  | index c d | binary _ c d | assign _ c d | loop c d => [c, d]
  | conditional c d e | branch c d e => [c, d, e]

/-- The list of further children, which follow the fixed ones. -/
def range? : NodeKind → Option NodeRange
  | invoke _ _ range | new _ range | closure _ range | block range => some range
  | _ => .none

/-- Whether the child at a position may be absent: the receiver of a call,
the initial value of a local, the value of a return and the second branch of
a conditional statement. -/
def mayBeAbsent : NodeKind → Nat → Bool
  | invoke .., 0 | declare .., 0 | ret _, 0 | branch .., 2 => true
  | _, _ => false

end NodeKind

end LambdaSharing
