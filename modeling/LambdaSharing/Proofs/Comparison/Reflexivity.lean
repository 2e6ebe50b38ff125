import LambdaSharing.Proofs.Comparison.Fingerprints

/-!
# A lambda beside itself

A fingerprint and a comparison are computed by two walks that were written
apart. Each checks what it reads, and each has a depth budget of its own; but
the one reads a body alone and the other reads two, checks both, and asks at
every node whether the two agree. If the two bodies are one, this should make
no difference: nothing may diverge, and where the one walk stops the other
has to stop, with the same fault.

That nothing diverges is known for bodies that can be read, because the
comparison decides whether two contents are equal. It says nothing of the
others, and it is for these that the order of the checks matters. So the two
walks are held against each other as computations, faults included: beside
itself, a node is compared as it is read (`Comparison.Reflexive`), which is
carried from the nodes below a node to the node, in the order in which the
comparison goes through them.
-/

namespace LambdaSharing

namespace Comparison

variable {a : Arena} {below : Pairing → NodeId → NodeId → Except Fault (Option Divergence)}
  {reads : Scope → NodeId → Except Fault Content} {s : Scope} {policy : CapturePolicy}

/-- What a comparison comes to that finds no divergence and meets the faults
of a reading. -/
def unanimous {α : Type} (reading : Except Fault α) : Except Fault (Option Divergence) :=
  reading.map fun _ => none

/-- What comes after something counts only if that came to nothing. -/
def andThen (x y : Except Fault (Option Divergence)) : Except Fault (Option Divergence) :=
  match x with
  | .ok none => y
  | decided => decided

/-- Two readings, one after the other, are one reading. -/
theorem andThen_unanimous {α β γ : Type} (x : Except Fault α) (y : Except Fault β)
    (f : α → β → γ) :
    andThen (unanimous x) (unanimous y) = unanimous (do return f (← x) (← y)) := by
  cases x with
  | error e => rfl
  | ok u => cases y <;> rfl

/-- Beside itself, a node is read twice or not at all; and shape, type and
number of children agree. -/
theorem pairSteps_self (id : NodeId) :
    pairSteps a ⟨s, s, policy⟩ id id = (do
      let node ← s.node a id
      let children ← s.children a id node.kind
      let payload ← payloadSteps a ⟨s, s, policy⟩ id id node.kind.payload node.kind.payload
      return payload ++ childrenSteps ⟨s, s, policy⟩ children children) := by
  unfold pairSteps
  cases s.node a id with
  | error e => rfl
  | ok node =>
    rw [ok_bind, ok_bind, ok_bind]
    cases s.children a id node.kind with
    | error e => rfl
    | ok children =>
      simp only [ok_bind, ne_eq, not_true_eq_false, if_false, require, beq_self_eq_true, if_true,
        List.append_nil]

/-- Beside itself, a node is compared as it is read. -/
def Reflexive (below : Pairing → NodeId → NodeId → Except Fault (Option Divergence))
    (reads : Scope → NodeId → Except Fault Content) : Prop :=
  ∀ s policy id, below ⟨s, s, policy⟩ id id = unanimous (reads s id)

namespace Reflexive

/-- A child is compared as it is read. -/
theorem child (h : Reflexive below reads) (c : Child) :
    firstWith below (childSteps ⟨s, s, policy⟩ c c) = unanimous (readChild reads s c) := by
  cases c with
  | none => rfl
  | some id =>
    rw [childSteps, firstWith_child, readChild_some]
    exact h s policy id

/-- Children are compared one after another, as they are read. -/
theorem children (h : Reflexive below reads) (cs : List Child) :
    firstWith below (childrenSteps ⟨s, s, policy⟩ cs cs) =
      unanimous (cs.mapM (readChild reads s)) := by
  induction cs with
  | nil => rfl
  | cons c cs ih =>
    calc firstWith below (childrenSteps ⟨s, s, policy⟩ (c :: cs) (c :: cs))
      _ = andThen (firstWith below (childSteps ⟨s, s, policy⟩ c c))
            (firstWith below (childrenSteps ⟨s, s, policy⟩ cs cs)) := firstWith_append _ _
      _ = andThen (unanimous (readChild reads s c)) (unanimous (cs.mapM (readChild reads s))) := by
        rw [h.child, ih]
      _ = unanimous ((c :: cs).mapM (readChild reads s)) := by
        rw [List.mapM_cons, andThen_unanimous]

/-- A lambda is compared as its body is read, since its signature agrees. -/
theorem lambda (h : Reflexive below reads) :
    firstWith below (lambdaSteps ⟨s, s, policy⟩) =
      unanimous (readChild reads s s.lambda.body) := by
  rw [Exact.lambdaSteps_of_signature_eq rfl]
  exact h.child s.lambda.body

/-- A payload is compared as the head of the node is read. The lambda of a
closure is compared as it is read, and any other payload, once it has passed
its check, matches itself. -/
theorem head (h : Reflexive below reads) (id : NodeId) (kind : NodeKind) :
    payloadSteps a ⟨s, s, policy⟩ id id kind.payload kind.payload >>= firstWith below =
      unanimous (a.readHead reads s id kind) := by
  by_cases hform : kind.payload.form = .nested
  · obtain ⟨l, hl⟩ := Payload.form_eq_nested_iff.1 hform
    rw [Arena.readHead_nested hl, hl, payloadSteps]
    cases a.scope l with
    | error e => rfl
    | ok inner =>
      rw [ok_bind, ok_bind, ok_bind, pure_eq, ok_bind, firstWith_inside, h.lambda]
      cases readChild reads inner inner.lambda.body <;> rfl
  · rw [Arena.readHead_plain hform, payloadSteps_of_plain rfl hform]
    cases hcheck : s.checkPayload id kind.payload with
    | error e => rfl
    | ok _ =>
      have hmatch : Pairing.payloadsMatch ⟨s, s, policy⟩ kind.payload kind.payload = true :=
        Pairing.payloadsMatch_self rfl hcheck hcheck fun _ _ _ => rfl
      rw [ok_bind, ok_bind, pure_eq, ok_bind, hmatch]
      rfl

/-- A node is compared as it is read, if that holds of the nodes below. -/
theorem pair (h : Reflexive below reads) (id : NodeId) :
    pairSteps a ⟨s, s, policy⟩ id id >>= firstWith below = unanimous (do
      let node ← s.node a id
      let children ← s.children a id node.kind
      let head ← a.readHead reads s id node.kind
      return head.content node.type (← children.mapM (readChild reads s))) := by
  rw [pairSteps_self]
  cases s.node a id with
  | error e => rfl
  | ok node =>
    rw [ok_bind, ok_bind]
    cases s.children a id node.kind with
    | error e => rfl
    | ok cs =>
      let payload := payloadSteps a ⟨s, s, policy⟩ id id node.kind.payload node.kind.payload
      let rest := childrenSteps ⟨s, s, policy⟩ cs cs
      -- what is found in the payload decides before the children are visited
      calc (payload >>= fun steps => pure (steps ++ rest)) >>= firstWith below
        _ = andThen (payload >>= firstWith below) (firstWith below rest) := by
          cases payload with
          | error e => rfl
          | ok steps => exact firstWith_append steps rest
        _ = andThen (unanimous (a.readHead reads s id node.kind))
              (unanimous (cs.mapM (readChild reads s))) := by
          rw [h.head, h.children]
        _ = _ := andThen_unanimous _ _ _

end Reflexive

/-- **Beside itself, a node is compared as it is read**, whatever levels are
left for it. -/
theorem reflexive_pairDivergence (a : Arena) (limit n : Nat) :
    Reflexive (pairDivergence a limit n) (a.readNode limit n) := by
  induction n with
  | zero =>
    -- both walks stop in front of the node
    intro s policy id
    rfl
  | succ n ih =>
    intro s policy id
    rw [pairDivergence, ih.pair, Arena.readNode]

end Comparison

/-- **A comparison of a lambda with itself is as good as a fingerprint.** It
finds the lambda equivalent to itself if there is a fingerprint, and
otherwise stops with the fault that there is instead. -/
theorem Arena.compareLambdas_self (a : Arena) (policy : CapturePolicy) (limit : Nat)
    (l : LambdaId) :
    a.compareLambdas policy limit l l = (a.lambdaHash limit l).map fun _ => .equivalent := by
  rw [compareLambdas_eq, lambdaHash_eq_of_read, Comparison.lambdaDivergence, readLambda]
  cases a.scope l with
  | error e => rfl
  | ok s =>
    rw [ok_bind, ok_bind, ok_bind, Comparison.stepsDivergence,
      (Comparison.reflexive_pairDivergence a limit limit).lambda]
    cases readChild (a.readNode limit limit) s s.lambda.body <;> rfl

end LambdaSharing
