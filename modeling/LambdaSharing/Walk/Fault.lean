import LambdaSharing.Node
import LambdaSharing.Walk.Budget

/-!
# Faults of bodies

Bodies come from a resolver that may be wrong about them. A walk that meets
something it cannot make sense of stops with a `Fault`: which lambda was
being read, which of its nodes, and what is wrong there. A fault is a value
like any other answer; no input makes a walk do anything worse.
-/

namespace LambdaSharing

/-- What is wrong with a node. -/
inductive Defect where
  /-- The position is not one of the arena's. -/
  | outOfBounds
  /-- A child that the shape needs is absent. -/
  | missingChild (position : Nat)
  /-- The list of children is not within the stored lists. -/
  | listOutOfBounds
  /-- A declaration of a local that the lambda does not have. -/
  | localOutOfRange (slot : UInt32)
deriving DecidableEq

/-- The defect as it is reported. -/
def Defect.message : Defect → String
  | .outOfBounds => "node id out of bounds"
  | .missingChild position => "required child " ++ toString position ++ " is absent"
  | .listOutOfBounds => "child list out of bounds"
  | .localOutOfRange slot =>
    "declares local " ++ toString slot.toNat ++ " beyond the lambda's local count"

/-- Why a body cannot be read. -/
inductive Fault where
  /-- A node makes no sense. -/
  | malformedNode (lambda : LambdaId) (node : NodeId) (defect : Defect)
  /-- There is no lambda of this number. -/
  | unknownLambda (lambda : LambdaId)
  /-- A variable refers to a slot that its lambda does not have. -/
  | slotOutOfRange (lambda : LambdaId) (node : NodeId) (slot : Slot) (declared : Nat)
  /-- The body is nested deeper than the walk may go. -/
  | depthExceeded (lambda : LambdaId) (cause : DepthExceeded)
deriving DecidableEq

namespace Fault

/-- The lambda in which the fault was found. -/
def lambda : Fault → LambdaId
  | malformedNode l _ _ | unknownLambda l | slotOutOfRange l _ _ _
  | depthExceeded l _ => l

/-- The fault as it is reported. -/
def message : Fault → String
  | malformedNode l node defect =>
    "lambda " ++ l.text ++ ": malformed node " ++ node.text ++ ": " ++ defect.message
  | unknownLambda l => "lambda " ++ l.text ++ " is not registered in this arena"
  | slotOutOfRange l node slot declared =>
    "lambda " ++ l.text ++ ": " ++ slot.text ++ " at node " ++ node.text
      ++ " is out of range (" ++ toString declared ++ " declared)"
  | depthExceeded l cause => "lambda " ++ l.text ++ ": " ++ cause.message

end Fault

end LambdaSharing
