import LambdaSharing.Proofs.Walk.Trails

/-!
# The first fault

A lambda may have many faults, in its own body and in those of the lambdas
that it creates, and its fingerprint is refused with one of them. This module
says which one, and what it says, without the walk that finds it.

At one node, what can be wrong has an order: the node may not be there, or
its list may not be stored, or a child may be missing, and only then is it
asked for the slot or the lambda that it mentions. `Arena.NodeFault` is the
first thing that is wrong with a node, as a statement about the arena and the
lambda that the node is read in. Among nodes the order is that of trails, and
too deep a node is a fault before it is looked at. `Arena.FirstFault` says
that a fault is the first in both orders, and it is the one that the
fingerprint is refused with (`lambdaHash_eq_error_iff`).

That all earlier nodes are sound is not a matter of looking back. A walk which
comes to a second child has spelled out all that is below the first, whatever
that is; so the one thing to be shown of a single level is that the walk stops
in the first turn below which it stops (`Arena.exists_turn_of_readNode_error`).
-/

namespace LambdaSharing

namespace Arena

variable {a : Arena} {l : LambdaId} {limit n : Nat} {s s' : Scope} {id id' : NodeId}
  {fault fault' : Fault} {trail : List Turn}

/-- **What is wrong with a node**, in the lambda in which it is read: the first
rule that it breaks. -/
inductive NodeFault (a : Arena) (s : Scope) (id : NodeId) : Fault → Prop where
  | outOfBounds (absent : a.node? id = none) :
    NodeFault a s id (.malformedNode s.id id .outOfBounds)
  | listOutOfBounds {node : Node} {range : NodeRange} (hnode : a.node? id = some node)
    (hrange : node.kind.range? = some range) (nonempty : range.len ≠ 0)
    (beyond : a.lists.size < range.start.toNat + range.len.toNat) :
    NodeFault a s id (.malformedNode s.id id .listOutOfBounds)
  | missingChild {node : Node} {children : List Child} {position : Nat}
    (hnode : a.node? id = some node) (hchildren : a.children? node.kind = some children)
    (absent : children[position]? = some none) (needed : ¬ node.kind.Optional position)
    (lowest : ∀ i < position, children[i]? = some none → node.kind.Optional i) :
    NodeFault a s id (.malformedNode s.id id (.missingChild position))
  /-- A variable has no children that could be missing. -/
  | slot {node : Node} {slot : Slot} {declared : Nat} (hnode : a.node? id = some node)
    (hkind : node.kind = .var slot) (hdeclared : s.lambda.slotCount? slot = some declared)
    (beyond : declared ≤ slot.number.toNat) :
    NodeFault a s id (.slotOutOfRange s.id id slot declared)
  /-- A declaration has no child that it needs. -/
  | declaration {node : Node} {slot : UInt32} {type : TypeId} {init : Child}
    (hnode : a.node? id = some node) (hkind : node.kind = .declare slot type init)
    (beyond : s.lambda.localCount ≤ slot) :
    NodeFault a s id (.malformedNode s.id id (.localOutOfRange slot))
  | unknownLambda {node : Node} {children : List Child} {l : LambdaId} {captures : NodeRange}
    (hnode : a.node? id = some node) (hchildren : a.children? node.kind = some children)
    (present : ∀ i, children[i]? = some none → node.kind.Optional i)
    (hkind : node.kind = .closure l captures) (unregistered : a.lambda? l = none) :
    NodeFault a s id (.unknownLambda l)

/-- A node that a walk can pass at some depth. -/
def Passable (a : Arena) (limit depth : Nat) (s : Scope) (id : NodeId) : Prop :=
  depth ≤ limit ∧ ∃ node, a.node? id = some node ∧ a.Sound s node

/-- **What is wrong with a node at some depth.** A node that is too deep is
not looked at. -/
inductive FaultAt (a : Arena) (limit depth : Nat) (s : Scope) (id : NodeId) : Fault → Prop where
  | tooDeep (hdepth : depth = limit + 1) : FaultAt a limit depth s id (.depthExceeded s.id ⟨limit⟩)
  | node {fault : Fault} (hdepth : depth ≤ limit) (hfault : a.NodeFault s id fault) :
    FaultAt a limit depth s id fault

/-- **The first fault of a lambda** under a depth limit: what is wrong with a
node that a walk meets, if it can pass all that it meets earlier. -/
inductive FirstFault (a : Arena) (limit : Nat) (l : LambdaId) : Fault → Prop where
  | unregistered (h : a.lambda? l = none) : FirstFault a limit l (.unknownLambda l)
  | met {trail : List Turn} {s : Scope} {id : NodeId} {fault : Fault} (hmet : a.Met l trail s id)
    (hfault : a.FaultAt limit (trail.length + 1) s id fault)
    (earlier : ∀ before < trail, ∀ t c, a.Met l before t c →
      a.Passable limit (before.length + 1) t c) :
    FirstFault a limit l fault

/-! ## The checks of one node -/

/-- Check what a node says apart from its children. -/
def inspectHead (a : Arena) (s : Scope) (id : NodeId) : Payload → Except Fault Unit
  | .nested l => (a.scope l).map fun _ => ()
  | payload => s.checkPayload id payload

/-- Check a node, and nothing that is below it. -/
def inspect (a : Arena) (s : Scope) (id : NodeId) : Except Fault Unit := do
  let node ← s.node a id
  let _ ← s.children a id node.kind
  a.inspectHead s id node.kind.payload

/-- All that a head says that is not a nested lambda is its payload. -/
theorem inspectHead_plain {payload : Payload} (hplain : payload.form ≠ .nested) :
    a.inspectHead s id payload = s.checkPayload id payload := by
  cases payload with
  | nested l => exact absurd rfl hplain
  | _ => rfl

/-- A head passes if its payload does, and if the lambda that it may create is
registered. -/
theorem inspectHead_eq_ok_iff {kind : NodeKind} :
    a.inspectHead s id kind.payload = .ok () ↔
      s.checkPayload id kind.payload = .ok () ∧
        ∀ l captures, kind = .closure l captures → ∃ lambda, a.lambda? l = some lambda := by
  cases kind with
  | closure l captures =>
    show (a.scope l).map _ = .ok () ↔ _
    cases hl : a.lambda? l <;> simp [Arena.scope, hl, NodeKind.payload, Scope.checkPayload]
  | _ => simp [inspectHead, NodeKind.payload]

/-- **A node passes all checks if it is there and sound.** -/
theorem inspect_eq_ok_iff :
    a.inspect s id = .ok () ↔ ∃ node, a.node? id = some node ∧ a.Sound s node := by
  unfold inspect
  simp only [bind_eq_ok_iff, Scope.node_eq_ok_iff, inspectHead_eq_ok_iff]
  refine exists_congr fun node => and_congr_right fun _ => ?_
  rw [exists_and_right, children_isOk_iff, checkPayload_eq_ok_iff]
  constructor
  · rintro ⟨⟨hstored, hpresent⟩, ⟨hparam, hcapture, hused, hdeclared⟩, hnested⟩
    exact ⟨hstored, hpresent, hparam, hcapture, hused, hdeclared, hnested⟩
  · intro h
    exact ⟨⟨h.stored, h.present⟩, ⟨h.param, h.capture, h.used, h.declared⟩, h.nested⟩

/-- A head fails by its slot, or because its lambda is not registered. -/
theorem inspectHead_eq_error_iff {kind : NodeKind} :
    a.inspectHead s id kind.payload = .error fault ↔
      (∃ slot declared, kind = .var slot ∧ s.lambda.slotCount? slot = some declared ∧
        declared ≤ slot.number.toNat ∧ fault = .slotOutOfRange s.id id slot declared) ∨
      (∃ slot type init, kind = .declare slot type init ∧ s.lambda.localCount ≤ slot ∧
        fault = .malformedNode s.id id (.localOutOfRange slot)) ∨
      ∃ l captures, kind = .closure l captures ∧ a.lambda? l = none ∧
        fault = .unknownLambda l := by
  cases kind with
  | var slot =>
    show s.checkSlot id slot = _ ↔ _
    simp [Scope.checkSlot_eq_error_iff]
  | declare slot type init =>
    show s.checkLocal id slot = _ ↔ _
    simp [Scope.checkLocal_eq_error_iff, Scope.malformed]
  | closure l captures =>
    show (a.scope l).map _ = .error fault ↔ _
    cases hl : a.lambda? l <;> simp [Arena.scope, hl, eq_comm]
  | _ => simp [inspectHead, NodeKind.payload, Scope.checkPayload]

/-- The children of a node cannot be found if its list is not stored. -/
theorem children?_eq_none_iff {kind : NodeKind} :
    a.children? kind = none ↔ ∃ range, kind.range? = some range ∧ range.len ≠ 0 ∧
      a.lists.size < range.start.toNat + range.len.toNat := by
  rw [Option.eq_none_iff_forall_ne_some, ← not_exists, exists_children?_iff]
  simp only [not_forall, not_or, Nat.not_le, exists_prop, ne_eq]

/-- **A node fails a check with what is wrong with it.** -/
theorem inspect_eq_error_iff : a.inspect s id = .error fault ↔ a.NodeFault s id fault := by
  unfold inspect
  simp only [bind_eq_error_iff, Scope.node_eq_error_iff, Scope.node_eq_ok_iff,
    Scope.children_eq_error_iff, Scope.children_eq_ok_iff, children?_eq_none_iff,
    NodeKind.missingFrom_eq_some_iff, NodeKind.missingFrom_eq_none_iff, Nat.zero_add,
    NodeKind.mayBeAbsent_iff, inspectHead_eq_error_iff]
  constructor
  · rintro (⟨absent, rfl⟩ | ⟨node, hnode, (⟨⟨range, hrange, nonempty, beyond⟩, rfl⟩ |
      ⟨children, position, hchildren, ⟨absent, needed, lowest⟩, rfl⟩) |
      ⟨children, ⟨hchildren, present⟩, ⟨slot, declared, hkind, hdeclared, beyond, rfl⟩ |
        ⟨slot, type, init, hkind, beyond, rfl⟩ | ⟨l, captures, hkind, unregistered, rfl⟩⟩⟩)
    · exact .outOfBounds absent
    · exact .listOutOfBounds hnode hrange nonempty beyond
    · exact .missingChild hnode hchildren absent needed lowest
    · exact .slot hnode hkind hdeclared beyond
    · exact .declaration hnode hkind beyond
    · exact .unknownLambda hnode hchildren present hkind unregistered
  · intro h
    cases h with
    | outOfBounds absent => exact .inl ⟨absent, rfl⟩
    | @listOutOfBounds node range hnode hrange nonempty beyond =>
      exact .inr ⟨node, hnode, .inl (.inl ⟨⟨range, hrange, nonempty, beyond⟩, rfl⟩)⟩
    | @missingChild node children position hnode hchildren absent needed lowest =>
      exact .inr ⟨node, hnode, .inl (.inr
        ⟨children, position, hchildren, ⟨absent, needed, lowest⟩, rfl⟩)⟩
    | @slot node slot declared hnode hkind hdeclared beyond =>
      have hchildren : a.children? node.kind = some [] := by rw [hkind]; rfl
      exact .inr ⟨node, hnode, .inr ⟨[], ⟨hchildren, nofun⟩,
        .inl ⟨slot, declared, hkind, hdeclared, beyond, rfl⟩⟩⟩
    | @declaration node slot type init hnode hkind beyond =>
      have hchildren : a.children? node.kind = some [init] := by rw [hkind]; rfl
      refine .inr ⟨node, hnode, .inr ⟨[init], ⟨hchildren, fun i hi => ?_⟩,
        .inr (.inl ⟨slot, type, init, hkind, beyond, rfl⟩)⟩⟩
      cases i with
      | zero => exact hkind ▸ .initialValue
      | succ i => cases hi
    | @unknownLambda node children l captures hnode hchildren present hkind unregistered =>
      exact .inr ⟨node, hnode, .inr ⟨children, ⟨hchildren, present⟩,
        .inr (.inr ⟨l, captures, hkind, unregistered, rfl⟩)⟩⟩

/-! ## One level of a walk -/

/-- A child cannot be read if it is there and cannot be read. -/
theorem readChild_eq_error_iff {below : Scope → NodeId → Except Fault Content} {c : Child} :
    readChild below s c = .error fault ↔ ∃ id, c = some id ∧ below s id = .error fault := by
  cases c <;> simp

/-- A head cannot be read if it fails by itself, or if the body of the lambda
that it creates cannot be read. -/
theorem readHead_eq_error_iff {below : Scope → NodeId → Except Fault Content} {kind : NodeKind} :
    a.readHead below s id kind = .error fault ↔
      a.inspectHead s id kind.payload = .error fault ∨
      ∃ l captures lambda, kind = .closure l captures ∧ a.lambda? l = some lambda ∧
        readChild below ⟨l, lambda⟩ lambda.body = .error fault := by
  by_cases hclosure : ∃ l captures, kind = .closure l captures
  · obtain ⟨l, captures, rfl⟩ := hclosure
    rw [readHead_nested rfl]
    show _ ↔ (a.scope l).map _ = _ ∨ _
    cases hl : a.lambda? l <;> simp [Arena.scope, hl, bind_eq_error_iff]
  · have hother : ∀ l captures, kind ≠ .closure l captures := fun l captures hkind =>
      hclosure ⟨l, captures, hkind⟩
    have hplain : kind.payload.form ≠ .nested := by
      refine Payload.form_ne_nested_iff.2 fun l hl => ?_
      obtain ⟨captures, hkind⟩ := NodeKind.payload_eq_nested_iff.1 hl
      exact hother l captures hkind
    rw [readHead_plain hplain, inspectHead_plain hplain]
    cases s.checkPayload id kind.payload <;> simp [hother]

/-- A head that can be read passes its checks. -/
theorem inspectHead_of_readHead {below : Scope → NodeId → Except Fault Content} {kind : NodeKind}
    (h : ∃ head, a.readHead below s id kind = .ok head) :
    a.inspectHead s id kind.payload = .ok () := by
  obtain ⟨hpayload, hnested⟩ := readHead_isOk_iff.1 h
  refine inspectHead_eq_ok_iff.2 ⟨hpayload, fun l captures hkind => ?_⟩
  obtain ⟨lambda, hlambda, -⟩ := hnested l captures hkind
  exact ⟨lambda, hlambda⟩

section Turns

variable {below : Scope → NodeId → Except Fault Content} {node : Node} {children : List Child}

/-- A head that cannot be read fails by itself, or in the turn into the
lambda. -/
theorem exists_turn_of_readHead_error (hnode : a.node? id = some node)
    (h : a.readHead below s id node.kind = .error fault) :
    a.inspectHead s id node.kind.payload = .error fault ∨
      a.inspectHead s id node.kind.payload = .ok () ∧
        ∃ s' id', a.Turns s id .lambda s' id' ∧ below s' id' = .error fault := by
  rcases readHead_eq_error_iff.1 h with hself | ⟨l, captures, lambda, hkind, hlambda, hbody⟩
  · exact .inl hself
  · obtain ⟨c, hc, hstop⟩ := readChild_eq_error_iff.1 hbody
    refine .inr ⟨?_, ⟨l, lambda⟩, c, .lambda hnode hkind hlambda hc, hstop⟩
    rw [hkind]
    show (a.scope l).map _ = .ok ()
    rw [scope_eq_ok_iff.2 ⟨lambda, hlambda, rfl⟩]
    rfl

/-- If the head of a node is read and the children up to some position are,
then so is all that the turns before this position lead to. -/
theorem read_of_turns_lt {position : Nat} (hnode : a.node? id = some node)
    (hchildren : a.children? node.kind = some children)
    (hhead : ∃ head, a.readHead below s id node.kind = .ok head)
    (hbefore : ∀ j < position, ∀ c, children[j]? = some c → ∃ v, readChild below s c = .ok v)
    {earlier : Turn} (hlt : earlier < .child position) (h : a.Turns s id earlier s' id') :
    ∃ content, below s' id' = .ok content := by
  cases earlier with
  | lambda =>
    obtain ⟨l, captures, lambda, hkind, hlambda, hbody, rfl⟩ := (Turns.lambda_iff hnode).1 h
    obtain ⟨lambda', hlambda', hread⟩ := (readHead_isOk_iff.1 hhead).2 l captures hkind
    obtain rfl := Option.some.inj (hlambda.symm.trans hlambda')
    exact readChild_isOk_iff.1 hread id' hbody
  | child j =>
    obtain ⟨hc, rfl⟩ := (Turns.child_iff hnode hchildren).1 h
    exact hbefore j (Turn.child_lt_child_iff.1 hlt) _ hc

end Turns

/-- **A walk stops at a node, or in the first turn in which it stops.** -/
theorem exists_turn_of_readNode_error (h : a.readNode limit (n + 1) s id = .error fault) :
    a.inspect s id = .error fault ∨ a.inspect s id = .ok () ∧
      ∃ turn s' id', a.Turns s id turn s' id' ∧ a.readNode limit n s' id' = .error fault ∧
        ∀ earlier < turn, ∀ t c, a.Turns s id earlier t c →
          ∃ content, a.readNode limit n t c = .ok content := by
  unfold inspect
  unfold readNode at h
  rcases bind_eq_error_iff.1 h with hnode | ⟨node, hnode, h⟩
  · exact .inl (by rw [hnode]; rfl)
  rw [hnode, ok_bind]
  rcases bind_eq_error_iff.1 h with hchildren | ⟨children, hchildren, h⟩
  · exact .inl (by rw [hchildren]; rfl)
  rw [hchildren, ok_bind]
  replace hnode := Scope.node_eq_ok_iff.1 hnode
  replace hchildren := (Scope.children_eq_ok_iff.1 hchildren).1
  rcases bind_eq_error_iff.1 h with hhead | ⟨head, hhead, h⟩
  · rcases exists_turn_of_readHead_error hnode hhead with hself | ⟨hself, s', id', hturn, hstop⟩
    · exact .inl hself
    · exact .inr ⟨hself, .lambda, s', id', hturn, hstop,
        fun earlier hlt => absurd hlt earlier.not_lt_lambda⟩
  · rcases bind_eq_error_iff.1 h with hcs | ⟨cs, -, hpure⟩
    · obtain ⟨i, place, hplace, hstop, hbefore⟩ := exists_first_of_mapM_error hcs
      obtain ⟨c, rfl, hstop⟩ := readChild_eq_error_iff.1 hstop
      refine .inr ⟨inspectHead_of_readHead ⟨head, hhead⟩, .child i, s, c,
        .child hnode hchildren hplace, hstop, ?_⟩
      intro earlier hlt t c' hturn
      exact read_of_turns_lt hnode hchildren ⟨head, hhead⟩ hbefore hlt hturn
    · cases hpure

/-! ## A walk -/

/-- What is below a node that can be read can be read too, with the levels
that are left there. -/
theorem Leads.read (h : a.Leads s id trail s' id')
    (hread : ∃ c, a.readNode limit n s id = .ok c) :
    ∃ left, trail.length + (left + 1) = n ∧ ∃ c, a.readNode limit (left + 1) s' id' = .ok c := by
  induction h generalizing n with
  | here =>
    cases n with
    | zero => exact nomatch hread
    | succ n => exact ⟨n, Nat.zero_add _, hread⟩
  | on first rest ih =>
    cases n with
    | zero => exact nomatch hread
    | succ n =>
      obtain ⟨left, rfl, hleft⟩ := ih ((readNode_succ_isOk_iff.1 hread).2 _ _ first.below)
      exact ⟨left, by rw [List.length_cons, Nat.add_right_comm], hleft⟩

/-- So a walk can pass all that is below such a node. -/
theorem Leads.passable {depth : Nat} (h : a.Leads s id trail s' id')
    (hdepth : depth + n = limit + 1) (hread : ∃ c, a.readNode limit n s id = .ok c) :
    a.Passable limit (depth + trail.length) s' id' := by
  obtain ⟨left, rfl, hleft⟩ := h.read hread
  exact ⟨by omega, (readNode_succ_isOk_iff.1 hleft).1⟩

/-- **A walk stops at a node that it cannot pass, and passes all that comes
before.** -/
theorem exists_first_of_readNode_error {depth : Nat} (hdepth : depth + n = limit + 1)
    (h : a.readNode limit n s id = .error fault) :
    ∃ trail s' id', a.Leads s id trail s' id' ∧
      a.FaultAt limit (depth + trail.length) s' id' fault ∧
      ∀ before < trail, ∀ t c, a.Leads s id before t c →
        a.Passable limit (depth + before.length) t c := by
  induction n generalizing depth s id with
  | zero =>
    cases h
    exact ⟨[], s, id, .here, .tooDeep hdepth, fun before hlt => absurd hlt (List.not_lt_nil before)⟩
  | succ n ih =>
    have hlimit : depth ≤ limit := by omega
    have hdeeper : depth + 1 + n = limit + 1 := by omega
    rcases exists_turn_of_readNode_error h with hself | ⟨hself, turn, t, c, hturn, hstop, hbefore⟩
    · refine ⟨[], s, id, .here, .node hlimit (inspect_eq_error_iff.1 hself), ?_⟩
      exact fun before hlt => absurd hlt (List.not_lt_nil before)
    · obtain ⟨trail, s', id', hleads, hfault, hearlier⟩ := ih hdeeper hstop
      have hcons : ∀ rest : List Turn, depth + (rest.length + 1) = depth + 1 + rest.length :=
        fun rest => by omega
      refine ⟨turn :: trail, s', id', .on hturn hleads, hcons trail ▸ hfault, ?_⟩
      -- an earlier place is this node, or below an earlier turn, or below the same turn
      intro before hlt t' c' hbefore'
      cases hbefore' with
      | here => exact ⟨hlimit, inspect_eq_ok_iff.1 hself⟩
      | @on _ _ _ _ _ _ earlier rest first hrest =>
        show a.Passable limit (depth + (rest.length + 1)) t' c'
        rw [hcons]
        rcases List.cons_lt_cons_iff.1 hlt with hturns | ⟨rfl, hrests⟩
        · exact hrest.passable hdeeper (hbefore earlier hturns _ _ first)
        · obtain ⟨rfl, rfl⟩ := hturn.unique first
          exact hearlier rest hrests _ _ hrest

/-! ## One fault is the first -/

/-- A node has one fault at most. -/
theorem FaultAt.unique {depth : Nat} (h : a.FaultAt limit depth s id fault)
    (h' : a.FaultAt limit depth s id fault') : fault = fault' := by
  cases h with
  | tooDeep hdepth =>
    cases h' with
    | tooDeep => rfl
    | node hdepth' => omega
  | node hdepth hfault =>
    cases h' with
    | tooDeep hdepth' => omega
    | node _ hfault' =>
      have := (inspect_eq_error_iff.2 hfault).symm.trans (inspect_eq_error_iff.2 hfault')
      exact Except.error.inj this

/-- A node with a fault is not passed. -/
theorem FaultAt.not_passable {depth : Nat} (h : a.FaultAt limit depth s id fault) :
    ¬ a.Passable limit depth s id := by
  rintro ⟨hdepth, hsound⟩
  cases h with
  | tooDeep hdepth' => omega
  | node _ hfault =>
    have := (inspect_eq_error_iff.2 hfault).symm.trans (inspect_eq_ok_iff.2 hsound)
    cases this

/-- **A lambda has one first fault at most.** -/
theorem FirstFault.unique (h : a.FirstFault limit l fault) (h' : a.FirstFault limit l fault') :
    fault = fault' := by
  cases h with
  | unregistered hnone =>
    cases h' with
    | unregistered => rfl
    | met hmet =>
      obtain ⟨lambda, -, hlambda, -⟩ := hmet
      cases hnone.symm.trans hlambda
  | @met trail _ _ _ hmet hfault earlier =>
    cases h' with
    | unregistered hnone =>
      obtain ⟨lambda, -, hlambda, -⟩ := hmet
      cases hnone.symm.trans hlambda
    | @met trail' _ _ _ hmet' hfault' earlier' =>
      rcases Turn.trails_trichotomy trail trail' with hlt | rfl | hlt
      · exact absurd (earlier' trail hlt _ _ hmet) hfault.not_passable
      · obtain ⟨rfl, rfl⟩ := hmet.unique hmet'
        exact hfault.unique hfault'
      · exact absurd (earlier trail' hlt _ _ hmet') hfault'.not_passable

/-- A lambda with a first fault cannot be read. -/
theorem FirstFault.not_read (h : a.FirstFault limit l fault) :
    ¬ ∃ c, a.readLambda limit l = .ok c := by
  rw [readLambda_isOk_iff]
  rintro ⟨⟨lambda, hlambda⟩, hall⟩
  cases h with
  | unregistered hnone => cases hnone.symm.trans hlambda
  | met hmet hfault => exact hfault.not_passable (hall _ _ _ hmet.reached)

/-- A lambda that cannot be read is refused with its first fault. -/
theorem firstFault_of_readLambda (h : a.readLambda limit l = .error fault) :
    a.FirstFault limit l fault := by
  unfold readLambda at h
  rcases bind_eq_error_iff.1 h with hs | ⟨s, hs, hbody⟩
  · obtain ⟨hnone, rfl⟩ := scope_eq_error_iff.1 hs
    exact .unregistered hnone
  obtain ⟨lambda, hlambda, rfl⟩ := scope_eq_ok_iff.1 hs
  rcases bind_eq_error_iff.1 hbody with hbody | ⟨c, -, hpure⟩
  · obtain ⟨body, hsome, hstop⟩ := readChild_eq_error_iff.1 hbody
    obtain ⟨trail, s, id, hleads, hfault, hearlier⟩ :=
      exists_first_of_readNode_error (Nat.add_comm 1 limit) hstop
    refine .met ⟨lambda, body, hlambda, hsome, hleads⟩ (Nat.add_comm 1 _ ▸ hfault) ?_
    rintro before hlt t c ⟨lambda', body', hlambda', hsome', hleads'⟩
    obtain rfl := Option.some.inj (hlambda.symm.trans hlambda')
    obtain rfl := Option.some.inj (hsome.symm.trans hsome')
    exact Nat.add_comm 1 _ ▸ hearlier before hlt t c hleads'
  · cases hpure

/-- **What a lambda is refused with is its first fault.** -/
theorem readLambda_eq_error_iff :
    a.readLambda limit l = .error fault ↔ a.FirstFault limit l fault := by
  constructor
  · exact firstFault_of_readLambda
  · intro h
    cases hread : a.readLambda limit l with
    | ok c => exact absurd ⟨c, hread⟩ h.not_read
    | error other => rw [(firstFault_of_readLambda hread).unique h]

/-- A fault is found in the lambda that is asked for, or in one that is
created on the way. -/
theorem FirstFault.lambda_eq_or_creates (h : a.FirstFault limit l fault) :
    fault.lambda = l ∨ a.Creates l fault.lambda := by
  cases h with
  | unregistered => exact .inl rfl
  | met hmet hfault =>
    cases hfault with
    | tooDeep => exact hmet.reached.eq_or_creates
    | node _ hfault =>
      cases hfault with
      | unknownLambda hnode _ _ hkind => exact .inr ⟨_, _, _, _, _, hmet.reached, hnode, hkind⟩
      | _ => exact hmet.reached.eq_or_creates

end Arena

/-- **A fingerprint is refused with the first fault.** A lambda has no
fingerprint exactly if it is not registered, or if there is a node on the way
that a walk cannot pass; and the fault that is reported is what is wrong with
the first such node, found in the lambda that this node is read in. -/
theorem lambdaHash_eq_error_iff (a : Arena) (limit : Nat) (l : LambdaId) (fault : Fault) :
    (a.lambdaHash limit l = .error fault ↔ a.FirstFault limit l fault) ∧
      (a.lambdaHash limit l = .error fault → fault.lambda = l ∨ a.Creates l fault.lambda) := by
  have hfirst : a.lambdaHash limit l = .error fault ↔ a.FirstFault limit l fault := by
    rw [← Arena.readLambda_eq_error_iff, Arena.lambdaHash_eq_of_read]
    cases a.readLambda limit l <;> simp
  exact ⟨hfirst, fun h => (hfirst.1 h).lambda_eq_or_creates⟩

/-- An arena with two lambdas. The first one creates the second, and then goes
on to a node that is not there; the second one uses a parameter that it does
not have. -/
def Arena.twoFaults : Arena where
  nodes := #[
    ⟨.closure ⟨1⟩ .empty, ⟨12⟩, .none⟩,
    ⟨.block ⟨0, 2⟩, .void, .none⟩,
    ⟨.var (.param 0), .int, .none⟩]
  lists := #[nodeAt 0, nodeAt 9]
  lambdas := #[
    { owner := .empty, target := ⟨12⟩, params := [], body := nodeAt 1 },
    { owner := .empty, target := ⟨12⟩, params := [], body := nodeAt 2 }]

/-- The variable in the inner lambda comes first, unless it is too deep. -/
theorem lambdaHash_of_twoFaults :
    let unknownParameter := Fault.slotOutOfRange ⟨1⟩ ⟨2, by decide⟩ (.param 0) 0
    Arena.twoFaults.lambdaHash 3 ⟨0⟩ = .error unknownParameter ∧
      Arena.twoFaults.FirstFault 3 ⟨0⟩ unknownParameter ∧
      (unknownParameter.lambda = ⟨0⟩ ∨ Arena.twoFaults.Creates ⟨0⟩ unknownParameter.lambda) ∧
      Arena.twoFaults.FirstFault 2 ⟨0⟩ (.depthExceeded ⟨1⟩ ⟨2⟩) := by
  have hparameter : Arena.twoFaults.lambdaHash 3 ⟨0⟩ =
      .error (.slotOutOfRange ⟨1⟩ ⟨2, by decide⟩ (.param 0) 0) := by
    rw [Arena.lambdaHash_eq]
    rfl
  have hdepth : Arena.twoFaults.lambdaHash 2 ⟨0⟩ = .error (.depthExceeded ⟨1⟩ ⟨2⟩) := by
    rw [Arena.lambdaHash_eq]
    rfl
  obtain ⟨hfirst, hlambda⟩ := lambdaHash_eq_error_iff Arena.twoFaults 3 ⟨0⟩ _
  exact ⟨hparameter, hfirst.1 hparameter, hlambda hparameter,
    (lambdaHash_eq_error_iff Arena.twoFaults 2 ⟨0⟩ _).1.1 hdepth⟩

end LambdaSharing
