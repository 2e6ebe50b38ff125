import LambdaSharing.Lambda

/-!
# Divergences

When two lambdas are not equivalent, the answer is the first pair of nodes at
which they differ, and in what. For signatures, which belong to no node, the
pair is that of the two bodies. Where a child is present on one side only,
one half of the pair is an absent child. And where two closures create
lambdas that differ, the pair is that of the closures, and the reason holds
the divergence of the two lambdas in turn.
-/

namespace LambdaSharing

mutual

/-- A pair of nodes at which two bodies differ. -/
inductive Divergence where
  | mk (left right : Child) (reason : DivergenceReason)

/-- In what two nodes differ. -/
inductive DivergenceReason where
  | signature (part : SignaturePart)
  /-- The shapes differ. -/
  | kind (left right : NodeTag)
  /-- The types of the nodes, or the types that two tests ask for. -/
  | type (left right : TypeId)
  | slot (left right : Slot)
  | literal
  | symbol
  | operator
  /-- The declared slots, or their types. -/
  | declaration
  | childCount (left right : Nat)
  /-- A child that may be absent is present on one side only. -/
  | presence
  /-- Two closures create lambdas that differ. -/
  | nested (left right : LambdaId) (inner : Divergence)

end

deriving instance DecidableEq for Divergence, DivergenceReason

namespace Divergence

/-- The node of the left body. -/
def left : Divergence → Child
  | mk left _ _ => left

/-- The node of the right body. -/
def right : Divergence → Child
  | mk _ right _ => right

/-- In what the two nodes differ. -/
def reason : Divergence → DivergenceReason
  | mk _ _ reason => reason

end Divergence

mutual

/-- The divergence seen from the other side. -/
def Divergence.swap : Divergence → Divergence
  | .mk left right reason => .mk right left reason.swap

/-- The reason seen from the other side. -/
def DivergenceReason.swap : DivergenceReason → DivergenceReason
  | .kind l r => .kind r l
  | .type l r => .type r l
  | .slot l r => .slot r l
  | .childCount l r => .childCount r l
  | .nested l r inner => .nested r l inner.swap
  | .signature part => .signature part
  | .literal => .literal
  | .symbol => .symbol
  | .operator => .operator
  | .declaration => .declaration
  | .presence => .presence

end

mutual

/-- The divergence as it is reported. -/
def Divergence.text : Divergence → String
  | .mk left right reason => left.text ++ " vs " ++ right.text ++ ": " ++ reason.text

/-- The reason as it is reported. -/
def DivergenceReason.text : DivergenceReason → String
  | .signature part => "signature differs (" ++ part.name ++ ")"
  | .kind l r => l.name ++ " vs " ++ r.name
  | .type l r => "type " ++ l.text ++ " vs " ++ r.text
  | .slot l r => l.text ++ " vs " ++ r.text
  | .literal => "literal values differ"
  | .symbol => "resolved symbols differ"
  | .operator => "operators differ"
  | .declaration => "local declarations differ"
  | .childCount l r => toString l ++ " vs " ++ toString r ++ " children"
  | .presence => "optional child present on one side"
  | .nested l r inner =>
    "nested lambdas " ++ l.text ++ " and " ++ r.text ++ " differ at " ++ inner.text

end

/-- The answer to a comparison. -/
inductive Outcome where
  | equivalent
  | diverged (first : Divergence)
deriving DecidableEq

namespace Outcome

/-- The outcome with a given first divergence, if there is one. -/
def ofDivergence? : Option Divergence → Outcome
  | none => .equivalent
  | some d => .diverged d

/-- The first divergence, if there is one. -/
def divergence? : Outcome → Option Divergence
  | .equivalent => none
  | .diverged d => some d

/-- Whether no divergence was found. -/
def isEquivalent : Outcome → Bool
  | .equivalent => true
  | .diverged _ => false

/-- The outcome seen from the other side. -/
def swap : Outcome → Outcome
  | .equivalent => .equivalent
  | .diverged d => .diverged d.swap

end Outcome

end LambdaSharing
