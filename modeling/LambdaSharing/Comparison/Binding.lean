import LambdaSharing.Walk.Scope

/-!
# When two slots are the same

Parameters, captures and locals are numbered by position, so corresponding
variables of two bodies have equal slots and no renaming has to be carried
along. A capture has a type besides its place, and the types must agree.
Whether the two captured variables must be the same as well is what a
`CapturePolicy` decides: each creation site passes the values of its own
variables, so in general they need not be.
-/

namespace LambdaSharing

/-- What is asked of two captures in the same place. -/
inductive CapturePolicy where
  /-- The same type. -/
  | positional
  /-- The same type and the same variable. -/
  | identity
deriving DecidableEq, Inhabited

/-- The policy's own name. -/
def CapturePolicy.name : CapturePolicy → String
  | positional => "positional"
  | identity => "identity"

/-- Two lambdas whose slots are compared. -/
structure Binding where
  left : Lambda
  right : Lambda
  /-- What is asked of captures. -/
  policy : CapturePolicy
deriving DecidableEq

namespace Binding

/-- A lambda beside itself. -/
def identity (lambda : Lambda) (policy : CapturePolicy) : Binding :=
  ⟨lambda, lambda, policy⟩

/-- Whether both lambdas have a capture in this place, and the two agree. -/
def capturesMatch (b : Binding) (index : UInt32) : Bool :=
  match b.left.captures[index.toNat]?, b.right.captures[index.toNat]? with
  | some l, some r => l.type == r.type && (b.policy == .positional || l.var == r.var)
  | _, _ => false

/-- Whether a slot of the left lambda and one of the right are the same. -/
def slotsMatch (b : Binding) : Slot → Slot → Bool
  | .param l, .param r | .local l, .local r => l == r
  | .capture l, .capture r => l == r && b.capturesMatch l
  | .symbol l, .symbol r => l == r
  | _, _ => false

end Binding

/-- Two bodies that are being compared, each read in its own scope. -/
structure Pairing where
  left : Scope
  right : Scope
  /-- What is asked of captures. -/
  policy : CapturePolicy
deriving DecidableEq

/-- The lambdas of the two scopes. -/
def Pairing.binding (p : Pairing) : Binding := ⟨p.left.lambda, p.right.lambda, p.policy⟩

end LambdaSharing
