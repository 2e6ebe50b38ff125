import LambdaSharing.Proofs.Content.Words
import LambdaSharing.Proofs.Walk.Sequence
import LambdaSharing.Walk.Scope

/-!
# Reading a body as its content

`Arena.content?` follows the children and asks for nothing more than that
they can be followed. The walks over bodies ask for more: that no needed
child is absent, that slots are declared, and that the depth limit is kept;
and where one of these fails they say what and where.

`Arena.readNode` does both. It reads the content of a node with the checks
of the walks, in their order, under their limit and with their faults. No
walk is computed like this, but what the walks come to can be said with it:
a fingerprint is mixed from the words of the content that is read, and a
comparison of two bodies that can both be read is a comparison of contents.

Whatever is read is the content of its place
(`Arena.content?_of_readNode`). The converse fails, as it should: a body may
have a content and break a rule, or lie deeper than the limit.
-/

namespace LambdaSharing

/-- What a node says apart from its type and its children. -/
inductive Head where
  /-- A node that is not a closure. -/
  | plain (tag : NodeTag) (payload : Payload)
  /-- A closure, as what its lambda says. -/
  | closure (signature : Signature) (body : Content)

namespace Head

/-- The tag of the node. -/
def tag : Head → NodeTag
  | plain tag _ => tag
  | closure .. => .closure

/-- The content of a node. -/
def content : Head → TypeId → List Content → Content
  | plain tag payload, type, children => .node tag payload type children
  | closure signature body, type, children => .closure signature body type children

/-- A content is that of one head, type and list of children only. -/
theorem content_inj {h k : Head} {t u : TypeId} {cs ds : List Content} :
    h.content t cs = k.content u ds ↔ h = k ∧ t = u ∧ cs = ds := by
  cases h <;> cases k <;> simp [content, and_assoc]

end Head

/-- A payload must be one that the lambda can have. -/
def Scope.checkPayload (s : Scope) (id : NodeId) : Payload → Except Fault Unit
  | .slot slot => s.checkSlot id slot
  | .declaration slot _ => s.checkLocal id slot
  | _ => .ok ()

/-- Read a child, given how nodes are read. -/
def readChild (below : Scope → NodeId → Except Fault Content) (s : Scope) :
    Child → Except Fault Content
  | none => .ok .absent
  | some id => below s id

@[simp] theorem readChild_none {below : Scope → NodeId → Except Fault Content} {s : Scope} :
    readChild below s none = .ok .absent := rfl

@[simp] theorem readChild_some {below : Scope → NodeId → Except Fault Content} {s : Scope}
    {id : NodeId} : readChild below s (some id) = below s id := rfl

namespace Arena

/-- Read what a node says apart from its type and its children. -/
def readHead (a : Arena) (below : Scope → NodeId → Except Fault Content) (s : Scope)
    (id : NodeId) (kind : NodeKind) : Except Fault Head :=
  match kind.payload with
  | .nested l => do
    let inner ← a.scope l
    return .closure inner.lambda.signature (← readChild below inner inner.lambda.body)
  | payload => do
    s.checkPayload id payload
    return .plain kind.tag payload

/-- **Read the content of a node** as a walk does, when `n` levels are left
for it and what is below it. -/
def readNode (a : Arena) (limit : Nat) : Nat → Scope → NodeId → Except Fault Content
  | 0, s, _ => .error (.depthExceeded s.id ⟨limit⟩)
  | n + 1, s, id => do
    let node ← s.node a id
    let children ← s.children a id node.kind
    let head ← a.readHead (a.readNode limit n) s id node.kind
    return head.content node.type (← children.mapM (readChild (a.readNode limit n) s))

/-- Read the content of a lambda under a depth limit. -/
def readLambda (a : Arena) (limit : Nat) (l : LambdaId) : Except Fault LambdaContent := do
  let s ← a.scope l
  return ⟨s.lambda.signature, ← readChild (a.readNode limit limit) s s.lambda.body⟩

/-! ## What reading comes to -/

variable {a : Arena} {limit n : Nat} {s : Scope} {id : NodeId} {kind : NodeKind}

/-- The head of a closure is read as its lambda is. -/
theorem readHead_nested {below : Scope → NodeId → Except Fault Content} {l : LambdaId}
    (hl : kind.payload = .nested l) :
    a.readHead below s id kind = (do
      let inner ← a.scope l
      return .closure inner.lambda.signature (← readChild below inner inner.lambda.body)) := by
  unfold readHead
  rw [hl]

/-- Any other head is read by checking the payload. -/
theorem readHead_plain {below : Scope → NodeId → Except Fault Content}
    (hplain : kind.payload.form ≠ .nested) :
    a.readHead below s id kind =
      (s.checkPayload id kind.payload).map fun _ => .plain kind.tag kind.payload := by
  unfold readHead
  split
  · exact absurd ‹_› (Payload.form_ne_nested_iff.1 hplain _)
  · cases s.checkPayload id kind.payload <;> rfl

/-- The head of a closure is what its lambda says, and any other head is the
tag and a payload that passes its check. -/
theorem readHead_eq_ok_iff {below : Scope → NodeId → Except Fault Content} {head : Head} :
    a.readHead below s id kind = .ok head ↔
      (∃ l inner body, kind.payload = .nested l ∧ a.scope l = .ok inner ∧
        readChild below inner inner.lambda.body = .ok body ∧
        head = .closure inner.lambda.signature body) ∨
      ((∀ l, kind.payload ≠ .nested l) ∧ s.checkPayload id kind.payload = .ok () ∧
        head = .plain kind.tag kind.payload) := by
  unfold readHead
  split
  · rename_i l hl
    simp only [bind_eq_ok_iff, pure_eq, Except.ok.injEq, hl, Payload.nested.injEq,
      exists_and_left, ne_eq, forall_eq', false_and, or_false]
    constructor
    · rintro ⟨inner, hinner, body, hbody, rfl⟩
      exact ⟨l, rfl, inner, hinner, body, hbody, rfl⟩
    · rintro ⟨_, rfl, inner, hinner, body, hbody, rfl⟩
      exact ⟨inner, hinner, body, hbody, rfl⟩
  · rename_i payload hplain
    simp only [bind_eq_ok_iff, pure_eq, Except.ok.injEq]
    constructor
    · rintro ⟨_, hcheck, rfl⟩
      exact .inr ⟨hplain, hcheck, rfl⟩
    · rintro (⟨l, _, _, hl, -⟩ | ⟨-, hcheck, rfl⟩)
      · exact absurd hl (hplain l)
      · exact ⟨(), hcheck, rfl⟩

/-- The head of a closure is what its lambda says. -/
theorem readHead_of_nested {below : Scope → NodeId → Except Fault Content} {head : Head}
    {l : LambdaId} (hl : kind.payload = .nested l) :
    a.readHead below s id kind = .ok head ↔
      ∃ inner body, a.scope l = .ok inner ∧
        readChild below inner inner.lambda.body = .ok body ∧
        head = .closure inner.lambda.signature body := by
  rw [readHead_nested hl]
  simp only [bind_eq_ok_iff, pure_eq, Except.ok.injEq, exists_and_left, eq_comm (a := head)]

/-- Any other head is the tag and a payload that passes its check. -/
theorem readHead_of_plain {below : Scope → NodeId → Except Fault Content} {head : Head}
    (hplain : kind.payload.form ≠ .nested) :
    a.readHead below s id kind = .ok head ↔
      s.checkPayload id kind.payload = .ok () ∧ head = .plain kind.tag kind.payload := by
  rw [readHead_plain hplain, map_eq_ok_iff]
  constructor
  · rintro ⟨_, hcheck, rfl⟩
    exact ⟨hcheck, rfl⟩
  · rintro ⟨hcheck, rfl⟩
    exact ⟨(), hcheck, rfl⟩

/-- What is read has the tag of the node. -/
theorem tag_of_readHead {below : Scope → NodeId → Except Fault Content} {head : Head}
    (h : a.readHead below s id kind = .ok head) : head.tag = kind.tag := by
  rcases readHead_eq_ok_iff.1 h with ⟨l, inner, body, hl, -, -, rfl⟩ | ⟨-, -, rfl⟩
  · exact (NodeKind.tag_of_nested hl).symm
  · rfl

/-- A node is read if it is there with all its children, and its head and
its children are read. -/
theorem readNode_succ_eq_ok_iff {c : Content} :
    a.readNode limit (n + 1) s id = .ok c ↔
      ∃ node children head cs, s.node a id = .ok node ∧
        s.children a id node.kind = .ok children ∧
        a.readHead (a.readNode limit n) s id node.kind = .ok head ∧
        children.mapM (readChild (a.readNode limit n) s) = .ok cs ∧
        c = head.content node.type cs := by
  unfold readNode
  simp only [bind_eq_ok_iff, pure_eq, Except.ok.injEq]
  constructor
  · rintro ⟨node, hnode, children, hchildren, head, hhead, cs, hcs, rfl⟩
    exact ⟨node, children, head, cs, hnode, hchildren, hhead, hcs, rfl⟩
  · rintro ⟨node, children, head, cs, hnode, hchildren, hhead, hcs, rfl⟩
    exact ⟨node, hnode, children, hchildren, head, hhead, cs, hcs, rfl⟩

/-- A lambda is read if it is registered and its body is read. -/
theorem readLambda_eq_ok_iff {l : LambdaId} {c : LambdaContent} :
    a.readLambda limit l = .ok c ↔
      ∃ s, a.scope l = .ok s ∧ s.lambda.signature = c.signature ∧
        readChild (a.readNode limit limit) s s.lambda.body = .ok c.body := by
  unfold readLambda
  simp only [bind_eq_ok_iff, pure_eq, Except.ok.injEq]
  constructor
  · rintro ⟨s, hs, body, hbody, rfl⟩
    exact ⟨s, hs, rfl, hbody⟩
  · rintro ⟨s, hs, hsignature, hbody⟩
    exact ⟨s, hs, c.body, hbody, by rw [hsignature]⟩

/-- A lambda that is read is registered, with the signature that is read. -/
theorem lambda?_of_readLambda {l : LambdaId} {c : LambdaContent}
    (h : a.readLambda limit l = .ok c) :
    ∃ lambda, a.lambda? l = some lambda ∧ lambda.signature = c.signature := by
  obtain ⟨s, hs, hsignature, -⟩ := readLambda_eq_ok_iff.1 h
  obtain ⟨lambda, hlambda, rfl⟩ := scope_eq_ok_iff.1 hs
  exact ⟨lambda, hlambda, hsignature⟩

/-! ## What is read is the content -/

/-- If reading an entry gives the same with and without checks, so does
reading a list. -/
theorem mapM_eq_some_of_ok {f : Child → Except Fault Content} {g : Child → Option Content}
    {places : List Child} {cs : List Content} (h : ∀ place c, f place = .ok c → g place = some c)
    (hf : places.mapM f = .ok cs) : places.mapM g = some cs := by
  rw [mapM_eq_ok_iff] at hf
  induction hf with
  | nil => rfl
  | cons hc _ ih => simp [List.mapM_cons, h _ _ hc, ih]

/-- What is read of a child is its content, if that holds of nodes. -/
theorem content?_of_readChild {below : Scope → NodeId → Except Fault Content}
    (h : ∀ s id c, below s id = .ok c → a.content? n (some id) = some c) (s : Scope)
    (place : Child) (c : Content) (hc : readChild below s place = .ok c) :
    a.content? n place = some c := by
  cases place with
  | none =>
    obtain rfl := Except.ok.inj hc
    cases n <;> rfl
  | some id => exact h s id c hc

/-- **What is read of a node is its content.** -/
theorem content?_of_readNode {c : Content} (h : a.readNode limit n s id = .ok c) :
    a.content? n (some id) = some c := by
  induction n generalizing s id c with
  | zero => simp [readNode] at h
  | succ n ih =>
    have hbelow := content?_of_readChild fun s id c (h : a.readNode limit n s id = .ok c) => ih h
    obtain ⟨node, children, head, cs, hnode, hchildren, hhead, hcs, rfl⟩ :=
      readNode_succ_eq_ok_iff.1 h
    rw [content?, Scope.node_eq_ok_iff.1 hnode]
    simp only [Option.bind_eq_bind, Option.bind_some, (Scope.children_eq_ok_iff.1 hchildren).1,
      mapM_eq_some_of_ok (hbelow s) hcs]
    rcases readHead_eq_ok_iff.1 hhead with
      ⟨l, inner, body, hl, hinner, hbody, rfl⟩ | ⟨hplain, -, rfl⟩
    · obtain ⟨lambda, hlambda, rfl⟩ := scope_eq_ok_iff.1 hinner
      simp only [hl, hlambda, Option.bind_some, hbelow _ _ _ hbody]
      rfl
    · split
      · exact absurd ‹_› (hplain _)
      · rfl

/-- What is read of a lambda is its content. -/
theorem hasLambdaContent_of_readLambda {l : LambdaId} {c : LambdaContent}
    (h : a.readLambda limit l = .ok c) : a.HasLambdaContent l c := by
  obtain ⟨s, hs, hsignature, hbody⟩ := readLambda_eq_ok_iff.1 h
  obtain ⟨lambda, hlambda, rfl⟩ := scope_eq_ok_iff.1 hs
  exact ⟨lambda, hlambda, hsignature, limit,
    content?_of_readChild (fun _ _ _ => content?_of_readNode) _ _ _ hbody⟩

/-! ## An example

Five lambdas of one arena. The first two return what they capture, the third
returns a number, and the last two create the first and the second. So the
first two say the same, and the last two say the same. -/

/-- The place of a node. -/
def nodeAt (n : Nat) : Child := NodeId.ofNat? n

/-- A lambda without parameters that captures one variable. -/
def capturing (var : UInt32) (body : Nat) : Lambda where
  owner := .empty
  target := ⟨12⟩
  params := []
  captures := [⟨⟨var⟩, .int⟩]
  body := nodeAt body

/-- The arena of the five lambdas. -/
def fiveLambdas : Arena where
  nodes := #[
    ⟨.var (.capture 0), .int, .none⟩,
    ⟨.ret (nodeAt 0), .void, .none⟩,
    ⟨.this, .object, .none⟩,
    ⟨.var (.capture 0), .int, .none⟩,
    ⟨.ret (nodeAt 3), .void, .none⟩,
    ⟨.literal (.int 1), .int, .none⟩,
    ⟨.ret (nodeAt 5), .void, .none⟩,
    ⟨.closure ⟨0⟩ ⟨0, 1⟩, ⟨12⟩, .none⟩,
    ⟨.closure ⟨1⟩ ⟨1, 1⟩, ⟨12⟩, .none⟩]
  lists := #[nodeAt 0, nodeAt 3]
  lambdas := #[capturing 1 1, capturing 2 4, capturing 1 6, capturing 1 7, capturing 1 8]

end Arena

end LambdaSharing
