import LambdaSharing.Walk.Scope

/-!
# The words of a lambda

The fingerprint of a lambda is mixed from a sequence of words that spells
out its content and nothing else. A node contributes its tag, its payload,
its type and the number of its children, and then the words of each child; a
child that is absent contributes one fixed word. A closure contributes, as
its payload, the signature and the body of the lambda it creates, never that
lambda's number. Nor do node positions, names of variables, owners or spans
occur anywhere. Of a captured variable only its place in the capture list is
seen, so that lambdas capturing different variables can still meet.

`nodePieces` gives the contribution of one node: a list of `Piece`s, each
of them a word or a node still to be spelled out. Reading a node and
checking its payload happens here, before any child is looked at.
`nodeWords` then puts the words together by recursion on the levels that are
left below the depth limit.
-/

namespace LambdaSharing.Fingerprint

/-- A part of the words of a node: one word, or all the words of another
node. -/
inductive Piece where
  | word (value : Nat)
  | node (scope : Scope) (id : NodeId)

/-- A child that is absent is one word. -/
def childPiece (s : Scope) : Child → Piece
  | none => .word Child.absentWord.toNat
  | some id => .node s id

/-- The words of a literal: which kind it is, then its value. A negative
number is taken modulo `2 ^ 64`. -/
def literalWords : Literal → List Nat
  | .int value => [0, value.toUInt64.toNat]
  | .float bits => [1, bits.toNat]
  | .bool value => [2, value.toNat]
  | .char value => [3, value.toNat]
  | .str value => [4, value.index.toNat]
  | .null => [5]

/-- The words of a list of types: how many there are, then each. -/
def typeWords (types : List TypeId) : List Nat :=
  types.length :: types.map (·.index.toNat)

/-- The words of a signature. -/
def signatureWords (s : Signature) : List Nat :=
  s.target.index.toNat :: typeWords s.params ++ typeWords s.captures

/-- The words of a list of words that stand for themselves. -/
def asPieces (words : List Nat) : List Piece := words.map .word

/-- The pieces of a lambda: its signature, then its body in its own scope. -/
def lambdaPieces (s : Scope) : List Piece :=
  asPieces (signatureWords s.lambda.signature) ++ [childPiece s s.lambda.body]

/-- The pieces of a payload, which is checked where it can be wrong. -/
def payloadPieces (a : Arena) (s : Scope) (id : NodeId) :
    Payload → Except Fault (List Piece)
  | .none => .ok []
  | .literal value => .ok (asPieces (literalWords value))
  | .slot slot => do
    s.checkSlot id slot
    return asPieces [slot.kindCode, slot.number.toNat]
  | .symbol symbol => .ok (asPieces [symbol.index.toNat])
  | .nested lambda => do
    return lambdaPieces (← a.scope lambda)
  | .target type => .ok (asPieces [type.index.toNat])
  | .unary op => .ok (asPieces [op.code])
  | .binary op => .ok (asPieces [op.code])
  | .assign none => .ok (asPieces [0])
  | .assign (some op) => .ok (asPieces [1, op.code])
  | .declaration slot type => do
    s.checkLocal id slot
    return asPieces [slot.toNat, type.index.toNat]

/-- The pieces of a node. -/
def nodePieces (a : Arena) (s : Scope) (id : NodeId) : Except Fault (List Piece) := do
  let node ← s.node a id
  let children ← s.children a id node.kind
  let payload ← payloadPieces a s id node.kind.payload
  return .word node.kind.tag.code :: payload
    ++ .word node.type.index.toNat :: .word children.length
    :: children.map (childPiece s)

/-- The words of a list of pieces, given the words of nodes. -/
def wordsWith (below : Scope → NodeId → Except Fault (List Nat)) :
    List Piece → Except Fault (List Nat)
  | [] => .ok []
  | .word w :: rest => do
    return w :: (← wordsWith below rest)
  | .node s id :: rest => do
    let words ← below s id
    return words ++ (← wordsWith below rest)

/-- **The words of a node**, when `n` levels are left for it and what is
below it. The limit is only needed to report that none is left. -/
def nodeWords (a : Arena) (limit : Nat) : Nat → Scope → NodeId → Except Fault (List Nat)
  | 0, s, _ => .error (.depthExceeded s.id ⟨limit⟩)
  | n + 1, s, id => do
    wordsWith (nodeWords a limit n) (← nodePieces a s id)

/-- The words of a list of pieces when `n` levels are left. -/
def pieceWords (a : Arena) (limit n : Nat) (pieces : List Piece) :
    Except Fault (List Nat) :=
  wordsWith (nodeWords a limit n) pieces

/-- **The words of a lambda** under a depth limit: its signature and its
body. -/
def lambdaWords (a : Arena) (limit : Nat) (l : LambdaId) : Except Fault (List Nat) := do
  pieceWords a limit limit (lambdaPieces (← a.scope l))

/-- The words of a lambda's body alone. -/
def bodyWords (a : Arena) (limit : Nat) (l : LambdaId) : Except Fault (List Nat) := do
  let s ← a.scope l
  pieceWords a limit limit [childPiece s s.lambda.body]

/-! ## Equations for lists of pieces -/

variable {below : Scope → NodeId → Except Fault (List Nat)}

@[simp] theorem wordsWith_nil : wordsWith below [] = .ok [] := rfl

/-- The words of two lists of pieces are those of the first followed by those
of the second. -/
theorem wordsWith_append (ps qs : List Piece) :
    wordsWith below (ps ++ qs) = (do
      let ws ← wordsWith below ps
      return ws ++ (← wordsWith below qs)) := by
  induction ps with
  | nil =>
    cases h : wordsWith below qs <;> simp [h, bind, Except.bind, pure, Except.pure]
  | cons p ps ih =>
    rcases p with w | ⟨s, id⟩
    · cases h : wordsWith below ps <;> cases h' : wordsWith below qs <;>
        simp [wordsWith, ih, h, h', bind, Except.bind, pure, Except.pure]
    · cases h'' : below s id <;> cases h : wordsWith below ps <;>
        cases h' : wordsWith below qs <;>
        simp [wordsWith, ih, h, h', h'', bind, Except.bind, pure, Except.pure]

/-- Words stand for themselves. -/
@[simp] theorem wordsWith_asPieces (words : List Nat) :
    wordsWith below (asPieces words) = .ok words := by
  induction words with
  | nil => rfl
  | cons w ws ih =>
    simp only [asPieces, List.map_cons] at ih ⊢
    simp [wordsWith, ih, bind, Except.bind, pure, Except.pure]

/-! ## Equations for nodes -/

variable {a : Arena} {limit n : Nat} {s : Scope} {id : NodeId}

@[simp] theorem nodeWords_zero :
    nodeWords a limit 0 s id = .error (.depthExceeded s.id ⟨limit⟩) := rfl

theorem nodeWords_of_pieces_error {e : Fault} (h : nodePieces a s id = .error e) :
    nodeWords a limit (n + 1) s id = .error e := by
  rw [nodeWords, h]
  rfl

theorem nodeWords_of_pieces {pieces : List Piece} (h : nodePieces a s id = .ok pieces) :
    nodeWords a limit (n + 1) s id = wordsWith (nodeWords a limit n) pieces := by
  rw [nodeWords, h]
  rfl

end LambdaSharing.Fingerprint
