import LambdaSharing.Arena.Basic
import LambdaSharing.Walk.Fault

/-!
# Reading a body safely

A `Scope` is the lambda whose body a walk is reading. Every access a walk
makes goes through it and is checked: the node must be there, its list of
children must be stored, the children its shape needs must be present, and
its slots must be declared. What fails becomes a `Fault` that names the
lambda of the scope, which inside a nested lambda is the nested one.

Fingerprints and comparisons both read nodes through `Scope.node`,
`Scope.children`, `Scope.checkSlot` and `Scope.checkLocal`, in this order.
That is why they agree on what a readable body is, and on which of several
faults is the first.
-/

namespace LambdaSharing

/-- The lambda whose body is being read. -/
structure Scope where
  /-- Its number, to which faults are attributed. -/
  id : LambdaId
  /-- The lambda itself. -/
  lambda : Lambda
deriving DecidableEq

/-- The scope of a lambda, if it is registered. -/
def Arena.scope (a : Arena) (id : LambdaId) : Except Fault Scope :=
  match a.lambda? id with
  | none => .error (.unknownLambda id)
  | some lambda => .ok ⟨id, lambda⟩

/-- The first position, counted from `start`, at which a child is absent that
the shape needs. -/
def NodeKind.missingFrom (kind : NodeKind) (start : Nat) : List Child → Option Nat
  | [] => none
  | some _ :: rest => kind.missingFrom (start + 1) rest
  | none :: rest =>
    if kind.mayBeAbsent start then kind.missingFrom (start + 1) rest else some start

namespace Scope

/-- A fault at a node of the scope. -/
def malformed (s : Scope) (node : NodeId) (defect : Defect) : Fault :=
  .malformedNode s.id node defect

/-- The node at a position. -/
def node (a : Arena) (s : Scope) (id : NodeId) : Except Fault Node :=
  match a.node? id with
  | none => .error (s.malformed id .outOfBounds)
  | some node => .ok node

/-- The children of a node of the given kind at the given position. -/
def children (a : Arena) (s : Scope) (id : NodeId) (kind : NodeKind) :
    Except Fault (List Child) :=
  match a.children? kind with
  | none => .error (s.malformed id .listOutOfBounds)
  | some children =>
    match kind.missingFrom 0 children with
    | some position => .error (s.malformed id (.missingChild position))
    | none => .ok children

/-- A variable must refer to a slot that the lambda has. -/
def checkSlot (s : Scope) (node : NodeId) (slot : Slot) : Except Fault Unit :=
  match s.lambda.slotCount? slot with
  | none => .ok ()
  | some declared =>
    if slot.number.toNat < declared then .ok ()
    else .error (.slotOutOfRange s.id node slot declared)

/-- A declaration must be of a local that the lambda has. -/
def checkLocal (s : Scope) (node : NodeId) (slot : UInt32) : Except Fault Unit :=
  if slot < s.lambda.localCount then .ok ()
  else .error (s.malformed node (.localOutOfRange slot))

/-! ## What the checks come to -/

/-- A node is read if it is there. -/
theorem node_eq_ok_iff {a : Arena} {s : Scope} {id : NodeId} {node : Node} :
    s.node a id = .ok node ↔ a.node? id = some node := by
  rw [Scope.node]
  split <;> simp_all

/-- A node is not read if it is not there. -/
theorem node_eq_error_iff {a : Arena} {s : Scope} {id : NodeId} {fault : Fault} :
    s.node a id = .error fault ↔ a.node? id = none ∧ fault = s.malformed id .outOfBounds := by
  rw [Scope.node]
  cases a.node? id with
  | none => simp [eq_comm]
  | some node => simp

/-- Children are read if they are stored and none is missing. -/
theorem children_eq_ok_iff {a : Arena} {s : Scope} {id : NodeId} {kind : NodeKind}
    {children : List Child} :
    s.children a id kind = .ok children ↔
      a.children? kind = some children ∧ kind.missingFrom 0 children = none := by
  rw [Scope.children]
  cases a.children? kind with
  | none => simp
  | some found =>
    simp only [Option.some.injEq]
    split
    · rename_i position h
      simp only [reduceCtorEq, false_iff, not_and]
      rintro rfl
      simp [h]
    · rename_i h
      simp only [Except.ok.injEq]
      constructor
      · rintro rfl
        exact ⟨rfl, h⟩
      · exact And.left

/-- Children are not read if they are not stored, or if one is missing. -/
theorem children_eq_error_iff {a : Arena} {s : Scope} {id : NodeId} {kind : NodeKind}
    {fault : Fault} :
    s.children a id kind = .error fault ↔
      (a.children? kind = none ∧ fault = s.malformed id .listOutOfBounds) ∨
        ∃ children position, a.children? kind = some children ∧
          kind.missingFrom 0 children = some position ∧
          fault = s.malformed id (.missingChild position) := by
  rw [Scope.children]
  cases a.children? kind with
  | none => simp [eq_comm]
  | some children =>
    cases h : kind.missingFrom 0 children with
    | none => simp [h]
    | some position => simp [h, eq_comm]

/-- A slot passes if it is below the number of its kind, where there is one. -/
theorem checkSlot_eq_ok_iff {s : Scope} {node : NodeId} {slot : Slot} :
    s.checkSlot node slot = .ok () ↔
      ∀ declared, s.lambda.slotCount? slot = some declared → slot.number.toNat < declared := by
  rw [Scope.checkSlot]
  cases s.lambda.slotCount? slot with
  | none => simp
  | some declared => simp

/-- A slot fails if it is not below the number of its kind. -/
theorem checkSlot_eq_error_iff {s : Scope} {node : NodeId} {slot : Slot} {fault : Fault} :
    s.checkSlot node slot = .error fault ↔
      ∃ declared, s.lambda.slotCount? slot = some declared ∧ declared ≤ slot.number.toNat ∧
        fault = .slotOutOfRange s.id node slot declared := by
  rw [Scope.checkSlot]
  cases s.lambda.slotCount? slot with
  | none => simp
  | some declared =>
    by_cases h : slot.number.toNat < declared
    · simp [h, Nat.not_le.2 h]
    · simp [h, eq_comm, Nat.not_lt.1 h]

/-- A declaration passes if its slot is below the number of locals. -/
theorem checkLocal_eq_ok_iff {s : Scope} {node : NodeId} {slot : UInt32} :
    s.checkLocal node slot = .ok () ↔ slot < s.lambda.localCount := by
  rw [Scope.checkLocal]
  split <;> simp_all

/-- A declaration fails if its slot is not below the number of locals. -/
theorem checkLocal_eq_error_iff {s : Scope} {node : NodeId} {slot : UInt32} {fault : Fault} :
    s.checkLocal node slot = .error fault ↔
      s.lambda.localCount ≤ slot ∧ fault = s.malformed node (.localOutOfRange slot) := by
  rw [Scope.checkLocal]
  by_cases h : slot < s.lambda.localCount
  · simp [h, UInt32.not_le.2 h]
  · simp [h, eq_comm, UInt32.not_lt.1 h]

end Scope

/-- A lambda is read if it is registered. -/
theorem Arena.scope_eq_ok_iff {a : Arena} {l : LambdaId} {s : Scope} :
    a.scope l = .ok s ↔ ∃ lambda, a.lambda? l = some lambda ∧ s = ⟨l, lambda⟩ := by
  rw [Arena.scope]
  cases a.lambda? l with
  | none => simp
  | some lambda => simp [eq_comm]

/-- A lambda is not read if it is not registered. -/
theorem Arena.scope_eq_error_iff {a : Arena} {l : LambdaId} {fault : Fault} :
    a.scope l = .error fault ↔ a.lambda? l = none ∧ fault = .unknownLambda l := by
  rw [Arena.scope]
  cases a.lambda? l with
  | none => simp [eq_comm]
  | some lambda => simp

end LambdaSharing
