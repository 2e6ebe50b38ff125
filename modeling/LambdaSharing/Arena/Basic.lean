import LambdaSharing.Lambda

/-!
# Arenas

An `Arena` holds the nodes and lambdas of one compilation unit. Nodes refer
to their children by position, and a shape with a list of children refers to
a range of one flat array that all lists share. An arena is only ever
appended to: what has a number keeps it and keeps its content.

Nothing is promised about the positions that nodes mention. A child may lie
beyond the end, a range may reach past the stored lists, a body may even
reach itself. The reading functions answer `none` in such a case, and it is
for the walks over bodies to say what is wrong.
-/

namespace LambdaSharing

/-- A node of an arena. -/
structure Node where
  /-- Its shape, with payload and children. -/
  kind : NodeKind
  /-- Its resolved type. -/
  type : TypeId
  /-- Where it stands in the source text. -/
  span : Span := .none
deriving DecidableEq

/-- The nodes and lambdas of one compilation unit. -/
structure Arena where
  /-- The nodes, by position. -/
  nodes : Array Node := #[]
  /-- All lists of children, one after the other. -/
  lists : Array Child := #[]
  /-- The lambdas, by number. -/
  lambdas : Array Lambda := #[]
deriving DecidableEq, Inhabited

/-- What an arena can run out of. -/
inductive Arena.Resource where
  | nodes | listEntries | lambdas
deriving DecidableEq

/-- Why an arena refuses a request. -/
inductive Arena.Refusal where
  /-- A child list is longer than a range can say. -/
  | listTooLong (length : Nat)
  /-- All positions are taken. -/
  | full (resource : Arena.Resource) (count : Nat)
  /-- The request needs a node that is not there. -/
  | unknownNode
  /-- The request needs a lambda that is not there. -/
  | unknownLambda
  /-- The child list of a node is not within the stored lists. -/
  | listOutOfBounds (place : Child)
deriving DecidableEq

/-- What there is to say about a refusal; that something is not there needs
no words. -/
def Arena.Refusal.message? : Arena.Refusal → Option String
  | .listTooLong n =>
    some ("node list too long: " ++ toString n ++ " exceeds u16::MAX")
  | .full .nodes n => some ("too many nodes: " ++ toString n ++ " exceeds u32::MAX")
  | .full .listEntries n =>
    some ("too many node list entries: " ++ toString n ++ " exceeds u32::MAX")
  | .full .lambdas n =>
    some ("too many lambdas: " ++ toString n ++ " exceeds u32::MAX")
  | .unknownNode | .unknownLambda => none
  | .listOutOfBounds place => some (place.text ++ " has an out-of-bounds child list")

namespace Arena

/-! ## Reading -/

/-- The node at a position. -/
def node? (a : Arena) (id : NodeId) : Option Node := a.nodes[id.index.toNat]?

/-- The node in a place, by the word that the place is written as. The word of
an absent child comes after all others, so nothing is found under it unless
the arena has a node for every word. -/
def nodeIn? (a : Arena) (place : Child) : Option Node := a.nodes[place.word.toNat]?

@[simp] theorem nodeIn?_some (a : Arena) (id : NodeId) : a.nodeIn? (some id) = a.node? id := rfl

theorem nodeIn?_none {a : Arena} (h : a.nodes.size < UInt32.size) : a.nodeIn? none = none :=
  Array.getElem?_eq_none (Nat.le_of_lt_succ h)

/-- The lambda with a number. -/
def lambda? (a : Arena) (id : LambdaId) : Option Lambda :=
  a.lambdas[id.index.toNat]?

/-- The children in a range. A range of no children may lie anywhere. -/
def list? (a : Arena) (range : NodeRange) : Option (List Child) :=
  let first := range.start.toNat
  let last := first + range.len.toNat
  if range.isEmpty then some []
  else if last ≤ a.lists.size then some (a.lists.extract first last).toList
  else none

/-- Whether all children in a range are stored. -/
def Stores (a : Arena) (range : NodeRange) : Prop :=
  range.isEmpty ∨ range.start.toNat + range.len.toNat ≤ a.lists.size

instance (a : Arena) (range : NodeRange) : Decidable (a.Stores range) :=
  inferInstanceAs (Decidable (_ ∨ _))

/-- The children in a range, for callers who know that they are stored. -/
def list (a : Arena) (range : NodeRange) (_ : a.Stores range) : List Child :=
  let first := range.start.toNat
  let last := first + range.len.toNat
  if range.isEmpty then [] else (a.lists.extract first last).toList

/-- A range can be read exactly if it is stored. -/
theorem list?_eq (a : Arena) (range : NodeRange) :
    a.list? range = if h : a.Stores range then some (a.list range h) else none := by
  by_cases h : a.Stores range
  · rw [dif_pos h]
    by_cases hempty : range.isEmpty = true
    · show ite _ _ _ = some (ite _ _ _)
      rw [if_pos hempty, if_pos hempty]
    · have hlast := h.resolve_left hempty
      show ite _ _ _ = some (ite _ _ _)
      rw [if_neg hempty, if_neg hempty, if_pos hlast]
  · obtain ⟨hempty, hlast⟩ := not_or.1 h
    rw [dif_neg h, list?, if_neg hempty, if_neg hlast]

/-- The children of a node: first those at fixed positions, then its list. -/
def children? (a : Arena) (kind : NodeKind) : Option (List Child) :=
  match kind.range? with
  | none => some kind.fixedChildren
  | some range => (a.list? range).map (kind.fixedChildren ++ ·)

/-- The children of the node at a place, for callers who know that the place
is taken and the list stored. -/
def children (a : Arena) (place : Child) : Except Refusal (List Child) :=
  match a.nodeIn? place with
  | none => .error .unknownNode
  | some node =>
    match a.children? node.kind with
    | none => .error (.listOutOfBounds place)
    | some children => .ok children

/-- The numbers of all lambdas, in order of registration. The number of lambdas
has to be a word, too. -/
def lambdaIds (a : Arena) : Except Refusal (List LambdaId) :=
  if a.lambdas.size ≥ UInt32.size then .error (.full .lambdas a.lambdas.size)
  else .ok ((List.range a.lambdas.size).map fun n => ⟨UInt32.ofNat n⟩)

/-! ## Appending -/

/-- Append a node, and say where it went. A node for every word is admitted.
The last of them goes where an absent child is written, so it can be read but
is no child of any other. -/
def push (a : Arena) (node : Node) : Except Refusal (Child × Arena) :=
  if a.nodes.size ≥ UInt32.size then .error (.full .nodes a.nodes.size)
  else .ok (.ofWord (UInt32.ofNat a.nodes.size), { a with nodes := a.nodes.push node })

/-- Append a list of children, and say where it went. An empty list takes no
place and goes nowhere. -/
def pushList (a : Arena) (children : List Child) :
    Except Refusal (NodeRange × Arena) :=
  if children.isEmpty then .ok (.empty, a)
  else if a.lists.size ≥ UInt32.size then .error (.full .listEntries a.lists.size)
  else if children.length ≥ UInt16.size then .error (.listTooLong children.length)
  else
    .ok (⟨UInt32.ofNat a.lists.size, UInt16.ofNat children.length⟩,
      { a with lists := a.lists.appendList children })

/-- Register a lambda, and say under which number. -/
def pushLambda (a : Arena) (lambda : Lambda) : Except Refusal (LambdaId × Arena) :=
  if a.lambdas.size ≥ UInt32.size then .error (.full .lambdas a.lambdas.size)
  else .ok (⟨UInt32.ofNat a.lambdas.size⟩, { a with lambdas := a.lambdas.push lambda })

end Arena

end LambdaSharing
