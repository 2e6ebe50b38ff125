/-!
# Operators

Operators are compared by identity: `a + b` and `a - b` never share an
implementation, and neither do `a + b` and `b + a`. What a fingerprint sees
of an operator is its `code`, its position in the enumeration, so the order
of the constructors below is part of the recorded fingerprints.
-/

namespace LambdaSharing

/-- Operators with two operands. -/
inductive BinaryOp where
  | add | sub | mul | div | rem
  | eq | notEq | lt | ltEq | gt | gtEq
  | and | or
  | bitAnd | bitOr | bitXor | shl | shr | uShr
deriving DecidableEq

namespace BinaryOp

/-- Every operator, in the order of the codes. -/
def all : List BinaryOp :=
  [add, sub, mul, div, rem, eq, notEq, lt, ltEq, gt, gtEq, and, or,
    bitAnd, bitOr, bitXor, shl, shr, uShr]

/-- The position of the operator in the enumeration. -/
def code (op : BinaryOp) : Nat := op.ctorIdx

/-- The operator's own name. -/
def name : BinaryOp → String
  | add => "Add" | sub => "Sub" | mul => "Mul" | div => "Div" | rem => "Rem"
  | eq => "Eq" | notEq => "NotEq" | lt => "Lt" | ltEq => "LtEq"
  | gt => "Gt" | gtEq => "GtEq"
  | and => "And" | or => "Or"
  | bitAnd => "BitAnd" | bitOr => "BitOr" | bitXor => "BitXor"
  | shl => "Shl" | shr => "Shr" | uShr => "UShr"

/-- The operator with a given name. -/
def ofName? (s : String) : Option BinaryOp := all.find? (·.name == s)

/-- The operator as it is written in a source program. -/
def symbol : BinaryOp → String
  | add => "+" | sub => "-" | mul => "*" | div => "/" | rem => "%"
  | eq => "==" | notEq => "!=" | lt => "<" | ltEq => "<="
  | gt => ">" | gtEq => ">="
  | and => "&&" | or => "||"
  | bitAnd => "&" | bitOr => "|" | bitXor => "^"
  | shl => "<<" | shr => ">>" | uShr => ">>>"

@[simp] theorem ofName?_name (op : BinaryOp) : ofName? op.name = some op := by
  cases op <;> rfl

end BinaryOp

/-- Operators with one operand. -/
inductive UnaryOp where
  | neg | not | bitNot | preInc | preDec | postInc | postDec
deriving DecidableEq

namespace UnaryOp

/-- Every operator, in the order of the codes. -/
def all : List UnaryOp := [neg, not, bitNot, preInc, preDec, postInc, postDec]

/-- The position of the operator in the enumeration. -/
def code (op : UnaryOp) : Nat := op.ctorIdx

/-- The operator's own name. -/
def name : UnaryOp → String
  | neg => "Neg" | not => "Not" | bitNot => "BitNot"
  | preInc => "PreInc" | preDec => "PreDec"
  | postInc => "PostInc" | postDec => "PostDec"

/-- The operator with a given name. -/
def ofName? (s : String) : Option UnaryOp := all.find? (·.name == s)

/-- The operator as it is written in a source program; a step before and a
step after the operand are written alike. -/
def symbol : UnaryOp → String
  | neg => "-" | not => "!" | bitNot => "~"
  | preInc | postInc => "++"
  | preDec | postDec => "--"

@[simp] theorem ofName?_name (op : UnaryOp) : ofName? op.name = some op := by
  cases op <;> rfl

end UnaryOp

end LambdaSharing
