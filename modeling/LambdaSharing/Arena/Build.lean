import LambdaSharing.Arena.Basic

/-!
# Building bodies bottom-up

`Build` is the monad in which a body is written down: every constructor
appends one node and returns it as a child for others, so a body is built from
its leaves to its root.

The constructors fix the types that follow from the shape: an integer
literal is an `int`, a type test a truth value, a statement has no value, a
cast has the type it casts to, an assignment the type of its target, and a
closure the interface that its lambda implements. All other types are for
the caller to give. A child is taken as it comes, present or absent; whether
it may be absent is checked when the body is read.
-/

namespace LambdaSharing

/-- A step that appends to an arena, or is refused. -/
abbrev Build := StateT Arena (Except Arena.Refusal)

namespace Build

/-- Refuse to go on. -/
def refuse {α : Type} (why : Arena.Refusal) : Build α := fun _ => .error why

/-- Append a node with its place in the source text. -/
def pushSpanned (kind : NodeKind) (type : TypeId) (span : Span) : Build Child :=
  fun a => a.push ⟨kind, type, span⟩

/-- Append a node that has no place in the source text. -/
def push (kind : NodeKind) (type : TypeId) : Build Child := pushSpanned kind type .none

/-- Append a list of children. -/
def pushList (children : List Child) : Build NodeRange := fun a => a.pushList children

/-- Register a lambda. -/
def pushLambda (lambda : Lambda) : Build LambdaId := fun a => a.pushLambda lambda

/-! ## Leaves -/

/-- A literal at a given type. -/
def literal (value : Literal) (type : TypeId) : Build Child := push (.literal value) type

/-- An `int` literal. -/
def int (value : Int64) : Build Child := literal (.int value) .int

/-- A `long` literal. -/
def long (value : Int64) : Build Child := literal (.int value) .long

/-- A string literal. -/
def string (value : Name) : Build Child := literal (.str value) .string

/-- A variable. -/
def var (slot : Slot) (type : TypeId) : Build Child := push (.var slot) type

/-- A parameter of the enclosing lambda. -/
def param (index : UInt32) (type : TypeId) : Build Child := var (.param index) type

/-- A captured variable of the enclosing lambda. -/
def capture (index : UInt32) (type : TypeId) : Build Child := var (.capture index) type

/-- A local variable of the body. -/
def localVar (index : UInt32) (type : TypeId) : Build Child := var (.local index) type

/-- A global. -/
def global (symbol : SymbolId) (type : TypeId) : Build Child := var (.symbol symbol) type

/-- The enclosing instance. -/
def this (type : TypeId) : Build Child := push .this type

/-! ## Expressions -/

/-- Member access. -/
def field (receiver : Child) (field : SymbolId) (type : TypeId) : Build Child :=
  push (.field receiver field) type

/-- Array access. -/
def index (receiver index : Child) (type : TypeId) : Build Child :=
  push (.index receiver index) type

/-- A method call; an unqualified one has no receiver. -/
def invoke (receiver : Child) (method : SymbolId) (args : List Child) (type : TypeId) :
    Build Child := do
  push (.invoke receiver method (← pushList args)) type

/-- Creation of an instance. -/
def new (ctor : SymbolId) (args : List Child) (type : TypeId) : Build Child := do
  push (.new ctor (← pushList args)) type

/-- A nested lambda, which must be registered already, with the expressions
that its captures take. -/
def closure (lambda : LambdaId) (captures : List Child) : Build Child := do
  match (← get).lambda? lambda with
  | none => refuse .unknownLambda
  | some nested => push (.closure lambda (← pushList captures)) nested.target

/-- A cast. -/
def cast (target : TypeId) (operand : Child) : Build Child := push (.cast operand) target

/-- A type test. -/
def instanceOf (operand : Child) (target : TypeId) : Build Child :=
  push (.instanceOf operand target) .bool

/-- An operator with one operand. -/
def unary (op : UnaryOp) (operand : Child) (type : TypeId) : Build Child :=
  push (.unary op operand) type

/-- An operator with two operands. -/
def binary (op : BinaryOp) (left right : Child) (type : TypeId) : Build Child :=
  push (.binary op left right) type

/-- A plain assignment to a node that is there already. -/
def assign (target value : Child) : Build Child := do
  match (← get).nodeIn? target with
  | none => refuse .unknownNode
  | some node => push (.assign none target value) node.type

/-- The conditional expression. -/
def conditional (cond thenBranch elseBranch : Child) (type : TypeId) : Build Child :=
  push (.conditional cond thenBranch elseBranch) type

/-! ## Statements -/

/-- A block. -/
def block (stmts : List Child) : Build Child := do
  push (.block (← pushList stmts)) .void

/-- The declaration of a local, perhaps without initial value. -/
def declare (slot : UInt32) (type : TypeId) (init : Child) : Build Child :=
  push (.declare slot type init) .void

/-- The conditional statement, perhaps without second branch. -/
def branch (cond thenBranch elseBranch : Child) : Build Child :=
  push (.branch cond thenBranch elseBranch) .void

/-- The loop. -/
def loop (cond body : Child) : Build Child := push (.loop cond body) .void

/-- The return statement, perhaps without value. -/
def ret (value : Child) : Build Child := push (.ret value) .void

/-- The throw statement. -/
def throw (value : Child) : Build Child := push (.throw value) .void

/-! ## Lambdas -/

/-- Register a lambda without locals. -/
def lambda (owner : Name) (target : TypeId) (params : List TypeId)
    (captures : List Capture) (body : Child) : Build LambdaId :=
  pushLambda { owner, target, params, captures, body }

end Build

end LambdaSharing
