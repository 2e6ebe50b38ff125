import LambdaSharing.Node

/-!
# Lambdas

A lambda is described by what its callers see – the target type and the
types of parameters and captures, its `Signature` – and by its body. The
body refers to parameters, captures and locals by position only. The
captured variables themselves are kept beside their types for the creation
site, which has to pass their values, and for the policy that asks for the
same variables on both sides.
-/

namespace LambdaSharing

/-- One captured outer variable. -/
structure Capture where
  /-- The variable whose value is passed at the creation site. -/
  var : SymbolId
  /-- Its type. -/
  type : TypeId
deriving DecidableEq, Inhabited

/-- What the callers of a lambda see of it. -/
structure Signature where
  /-- The functional interface the lambda implements. -/
  target : TypeId
  /-- The types of the parameters. -/
  params : List TypeId
  /-- The types of the captured variables. -/
  captures : List TypeId
deriving DecidableEq

/-- The parts of a signature, in the order in which they are compared. -/
inductive SignaturePart where
  | target | paramTypes | captureTypes
deriving DecidableEq

/-- The part's own name. -/
def SignaturePart.name : SignaturePart → String
  | target => "Target"
  | paramTypes => "ParamTypes"
  | captureTypes => "CaptureTypes"

namespace Signature

/-- The first part in which two signatures differ. -/
def mismatch? (l r : Signature) : Option SignaturePart :=
  if l.target ≠ r.target then some .target
  else if l.params ≠ r.params then some .paramTypes
  else if l.captures ≠ r.captures then some .captureTypes
  else none

/-- Signatures without a differing part are equal. -/
theorem mismatch?_eq_none_iff (l r : Signature) : l.mismatch? r = none ↔ l = r := by
  cases l
  cases r
  simp only [mismatch?, Signature.mk.injEq]
  grind

end Signature

/-- A lambda as the resolver hands it over. -/
structure Lambda where
  /-- The enclosing method, after which a generated method is named. -/
  owner : Name
  /-- The functional interface the lambda implements. -/
  target : TypeId
  /-- The types of the declared parameters. -/
  params : List TypeId
  /-- The captured variables, in order of first use. -/
  captures : List Capture := []
  /-- How many locals the body declares. -/
  localCount : UInt32 := 0
  /-- The root of the body. -/
  body : Child
  /-- Where the lambda stands in the source text. -/
  span : Span := .none
deriving DecidableEq

namespace Lambda

/-- What the callers of the lambda see. -/
def signature (l : Lambda) : Signature :=
  ⟨l.target, l.params, l.captures.map (·.type)⟩

/-- How many slots of the given slot's kind the lambda has, where there is a
limit at all: a resolved symbol is never out of range. -/
def slotCount? (l : Lambda) : Slot → Option Nat
  | .param _ => some l.params.length
  | .capture _ => some l.captures.length
  | .local _ => some l.localCount.toNat
  | .symbol _ => none

end Lambda

end LambdaSharing
