import LambdaSharing.Proofs.Fingerprint.Spelling

/-!
# Which lambdas have a fingerprint

Nothing is known of the bodies that a walk is sent into, and what a walk
checks on its way is spread over its steps. This module says what all the
checks together come to, without mentioning the walk: which nodes are
*reached* from a lambda, and at what depth (`Arena.Reached`), and what is
asked of one node in the lambda that it belongs to (`Arena.Sound`). A lambda
has a fingerprint exactly if it is registered and every node that is reached
from it is sound and not too deep (`lambdaHash_isOk_iff`).

Both notions are plain facts about an arena, and there is no rule against
loops: the nodes on a loop may all be sound. But each of them is reached at
greater and greater depths, so that a body which leads back to itself exceeds
every limit.
-/

namespace LambdaSharing

/-! ## What is asked of a node -/

/-- The children that a shape can do without: the receiver of a call, the
initial value of a local, the value of a return, and the second branch of a
conditional statement. -/
inductive NodeKind.Optional : NodeKind → Nat → Prop where
  | receiver {c : Child} {method : SymbolId} {args : NodeRange} :
    Optional (.invoke c method args) 0
  | initialValue {slot : UInt32} {type : TypeId} {c : Child} : Optional (.declare slot type c) 0
  | returnValue {c : Child} : Optional (.ret c) 0
  | elseBranch {cond thenBranch c : Child} : Optional (.branch cond thenBranch c) 2

/-- **A node that breaks no rule** of the lambda it is read in. -/
structure Arena.Sound (a : Arena) (s : Scope) (node : Node) : Prop where
  /-- The list of further children is within the stored lists, unless it is
  empty. -/
  stored : ∀ range, node.kind.range? = some range →
    range.len = 0 ∨ range.start.toNat + range.len.toNat ≤ a.lists.size
  /-- Only a child that the shape can do without is absent. -/
  present : ∀ children i, a.children? node.kind = some children → children[i]? = some none →
    node.kind.Optional i
  /-- A parameter is one that the lambda has. -/
  param : ∀ i, node.kind = .var (.param i) → i.toNat < s.lambda.params.length
  /-- A capture is one that the lambda has. -/
  capture : ∀ i, node.kind = .var (.capture i) → i.toNat < s.lambda.captures.length
  /-- A local is one that the lambda has. -/
  used : ∀ i, node.kind = .var (.local i) → i < s.lambda.localCount
  /-- So is a local that is declared. -/
  declared : ∀ slot type init, node.kind = .declare slot type init → slot < s.lambda.localCount
  /-- The lambda that a closure creates is registered. -/
  nested : ∀ l captures, node.kind = .closure l captures → ∃ lambda, a.lambda? l = some lambda

/-! ## What is reached -/

namespace Arena

/-- One node is right below another: it is a child, in the same lambda, or it
is the body of the lambda that a closure creates, in that lambda. -/
inductive Below (a : Arena) : Scope → NodeId → Scope → NodeId → Prop where
  | child {s : Scope} {id c : NodeId} {node : Node} {children : List Child}
    (hnode : a.node? id = some node) (hchildren : a.children? node.kind = some children)
    (hc : some c ∈ children) : Below a s id s c
  | nested {s : Scope} {id c : NodeId} {node : Node} {l : LambdaId} {captures : NodeRange}
    {lambda : Lambda} (hnode : a.node? id = some node) (hkind : node.kind = .closure l captures)
    (hlambda : a.lambda? l = some lambda) (hbody : lambda.body = some c) :
    Below a s id ⟨l, lambda⟩ c

/-- **What is reached from a lambda**, at which depth and as part of which
lambda. The body is at depth 1, and what is right below a node is one level
deeper than the node. -/
inductive Reached (a : Arena) (l : LambdaId) : Nat → Scope → NodeId → Prop where
  | body {lambda : Lambda} {id : NodeId} (hlambda : a.lambda? l = some lambda)
    (hbody : lambda.body = some id) : Reached a l 1 ⟨l, lambda⟩ id
  | step {depth : Nat} {s s' : Scope} {id id' : NodeId} (h : Reached a l depth s id)
    (hbelow : a.Below s id s' id') : Reached a l (depth + 1) s' id'

end Arena

/-! ## What the checks of a node come to -/

theorem NodeKind.mayBeAbsent_iff {kind : NodeKind} {i : Nat} :
    kind.mayBeAbsent i = true ↔ kind.Optional i := by
  constructor
  · intro h
    unfold mayBeAbsent at h
    split at h
    · exact .receiver
    · exact .initialValue
    · exact .returnValue
    · exact .elseBranch
    · cases h
  · intro h
    cases h <;> rfl

/-- No child is missing if all that are absent may be. -/
theorem NodeKind.missingFrom_eq_none_iff {kind : NodeKind} {start : Nat} {children : List Child} :
    kind.missingFrom start children = none ↔
      ∀ i, children[i]? = some none → kind.mayBeAbsent (start + i) = true := by
  induction children generalizing start with
  | nil => simp [missingFrom]
  | cons c children ih =>
    have hrest : kind.missingFrom (start + 1) children = none ↔
        ∀ i, (c :: children)[i + 1]? = some none → kind.mayBeAbsent (start + (i + 1)) = true := by
      rw [ih]
      simp only [List.getElem?_cons_succ, Nat.add_assoc, Nat.add_comm 1]
    rw [← Nat.and_forall_add_one, ← hrest, List.getElem?_cons_zero, Nat.add_zero]
    cases c with
    | some id => simp [missingFrom]
    | none =>
      rw [missingFrom]
      by_cases habsent : kind.mayBeAbsent start = true
      · simp [habsent]
      · simp [habsent]

/-- A child that is missing is absent and needed, and no child before it is
missing. -/
theorem NodeKind.missing_of_missingFrom {kind : NodeKind} {start position : Nat}
    {children : List Child} (h : kind.missingFrom start children = some position) :
    ∃ i, position = start + i ∧ children[i]? = some none ∧ ¬ kind.Optional position ∧
      ∀ j < i, children[j]? = some none → kind.Optional (start + j) := by
  induction children generalizing start with
  | nil => cases h
  | cons c children ih =>
    by_cases hc : c = none ∧ ¬ kind.Optional start
    · obtain ⟨rfl, hneeded⟩ := hc
      rw [missingFrom, if_neg (mt mayBeAbsent_iff.1 hneeded)] at h
      obtain rfl := Option.some.inj h
      exact ⟨0, rfl, rfl, hneeded, fun j hj => absurd hj (Nat.not_lt_zero j)⟩
    · have hrest : kind.missingFrom (start + 1) children = some position := by
        cases c with
        | some id => exact h
        | none =>
          rwa [missingFrom, if_pos (mayBeAbsent_iff.2 (not_not.1 fun hn => hc ⟨rfl, hn⟩))] at h
      obtain ⟨i, rfl, habsent, hneeded, hbefore⟩ := ih hrest
      refine ⟨i + 1, by omega, habsent, hneeded, fun j hj hj' => ?_⟩
      cases j with
      | zero => exact not_not.1 fun hn => hc ⟨Option.some.inj hj', hn⟩
      | succ j =>
        rw [← Nat.add_assoc, Nat.add_right_comm]
        exact hbefore j (Nat.lt_of_succ_lt_succ hj) hj'

/-- A child is missing in a position if it is absent there and needed, and no
child before it is. -/
theorem NodeKind.missingFrom_eq_some_iff {kind : NodeKind} {children : List Child}
    {position : Nat} :
    kind.missingFrom 0 children = some position ↔
      children[position]? = some none ∧ ¬ kind.Optional position ∧
        ∀ i < position, children[i]? = some none → kind.Optional i := by
  constructor
  · intro h
    obtain ⟨i, rfl, habsent, hneeded, hbefore⟩ := missing_of_missingFrom h
    simp only [Nat.zero_add] at hneeded hbefore ⊢
    exact ⟨habsent, hneeded, hbefore⟩
  · rintro ⟨habsent, hneeded, hbefore⟩
    cases h : kind.missingFrom 0 children with
    | none =>
      have := missingFrom_eq_none_iff.1 h position habsent
      rw [Nat.zero_add, mayBeAbsent_iff] at this
      exact absurd this hneeded
    | some other =>
      obtain ⟨i, rfl, habsent', hneeded', hbefore'⟩ := missing_of_missingFrom h
      simp only [Nat.zero_add] at hneeded' hbefore' ⊢
      rcases Nat.lt_trichotomy i position with hlt | rfl | hlt
      · exact absurd (hbefore i hlt habsent') hneeded'
      · rfl
      · exact absurd (hbefore' position hlt habsent) hneeded

/-- Only closures hold a nested lambda. -/
theorem NodeKind.payload_eq_nested_iff {kind : NodeKind} {l : LambdaId} :
    kind.payload = .nested l ↔ ∃ captures, kind = .closure l captures := by
  cases kind <;> simp [payload]

namespace Arena

variable {a : Arena} {s : Scope} {id : NodeId} {kind : NodeKind} {node : Node} {limit n : Nat}

/-- The children of a node can be found if its list is stored. -/
theorem exists_children?_iff :
    (∃ children, a.children? kind = some children) ↔
      ∀ range, kind.range? = some range →
        range.len = 0 ∨ range.start.toNat + range.len.toNat ≤ a.lists.size := by
  unfold children?
  cases kind.range? with
  | none => simp
  | some range =>
    simp only [Option.map_eq_some_iff, Option.some.injEq, forall_eq']
    unfold list? NodeRange.isEmpty
    by_cases hempty : range.len = 0
    · simp [hempty]
    · by_cases hstored : range.start.toNat + range.len.toNat ≤ a.lists.size
      · simp [hempty, hstored]
      · simp [hempty, hstored]

/-- A payload other than a nested lambda passes its check if the slot that it
may hold is one that the lambda has. -/
theorem checkPayload_eq_ok_iff :
    s.checkPayload id kind.payload = .ok () ↔
      (∀ i, kind = .var (.param i) → i.toNat < s.lambda.params.length) ∧
      (∀ i, kind = .var (.capture i) → i.toNat < s.lambda.captures.length) ∧
      (∀ i, kind = .var (.local i) → i < s.lambda.localCount) ∧
      ∀ slot type init, kind = .declare slot type init → slot < s.lambda.localCount := by
  cases kind with
  | var slot =>
    show s.checkSlot id slot = .ok () ↔ _
    rw [Scope.checkSlot_eq_ok_iff]
    cases slot <;> simp [Lambda.slotCount?, Slot.number, UInt32.lt_iff_toNat_lt]
  | declare slot type init =>
    show s.checkLocal id slot = .ok () ↔ _
    rw [Scope.checkLocal_eq_ok_iff]
    simp
  | _ => simp [NodeKind.payload, Scope.checkPayload]

/-- The children of a node are read if its list is stored and only children
that it can do without are absent. -/
theorem children_isOk_iff :
    (∃ children, s.children a id kind = .ok children) ↔
      (∀ range, kind.range? = some range →
        range.len = 0 ∨ range.start.toNat + range.len.toNat ≤ a.lists.size) ∧
      ∀ children i, a.children? kind = some children → children[i]? = some none →
        kind.Optional i := by
  simp only [Scope.children_eq_ok_iff, NodeKind.missingFrom_eq_none_iff, Nat.zero_add,
    NodeKind.mayBeAbsent_iff, ← exists_children?_iff]
  constructor
  · rintro ⟨children, hchildren, hpresent⟩
    refine ⟨⟨children, hchildren⟩, ?_⟩
    intro children' i hchildren'
    obtain rfl := Option.some.inj (hchildren.symm.trans hchildren')
    exact hpresent i
  · rintro ⟨⟨children, hchildren⟩, hpresent⟩
    exact ⟨children, hchildren, fun i => hpresent children i hchildren⟩

/-- The head of a node is read if its payload passes its check, and if the
body of the lambda that it may create is read. -/
theorem readHead_isOk_iff {below : Scope → NodeId → Except Fault Content} :
    (∃ head, a.readHead below s id kind = .ok head) ↔
      s.checkPayload id kind.payload = .ok () ∧
        ∀ l captures, kind = .closure l captures → ∃ lambda, a.lambda? l = some lambda ∧
          ∃ c, readChild below ⟨l, lambda⟩ lambda.body = .ok c := by
  by_cases hclosure : ∃ l captures, kind = .closure l captures
  · obtain ⟨l, captures, rfl⟩ := hclosure
    have hpayload : (NodeKind.closure l captures).payload = .nested l := rfl
    simp only [readHead_of_nested hpayload, scope_eq_ok_iff]
    constructor
    · rintro ⟨_, _, body, ⟨lambda, hlambda, rfl⟩, hbody, -⟩
      refine ⟨rfl, ?_⟩
      rintro _ _ ⟨⟩
      exact ⟨lambda, hlambda, body, hbody⟩
    · rintro ⟨-, hnested⟩
      obtain ⟨lambda, hlambda, body, hbody⟩ := hnested l captures rfl
      exact ⟨_, _, body, ⟨lambda, hlambda, rfl⟩, hbody, rfl⟩
  · have hplain : kind.payload.form ≠ .nested := by
      rw [Payload.form_ne_nested_iff]
      intro l hl
      exact hclosure ⟨l, NodeKind.payload_eq_nested_iff.1 hl⟩
    simp only [readHead_of_plain hplain]
    constructor
    · rintro ⟨_, hcheck, -⟩
      exact ⟨hcheck, fun l captures hkind => absurd ⟨l, captures, hkind⟩ hclosure⟩
    · rintro ⟨hcheck, -⟩
      exact ⟨_, hcheck, rfl⟩

/-- A child is read if it is absent or if the node there is read. -/
theorem readChild_isOk_iff {below : Scope → NodeId → Except Fault Content} {place : Child} :
    (∃ c, readChild below s place = .ok c) ↔
      ∀ id, place = some id → ∃ c, below s id = .ok c := by
  cases place with
  | none => simp
  | some id => simp

/-- **A node can be read if it is there, is sound, and all that is right below
it can be read.** -/
theorem readNode_succ_isOk_iff :
    (∃ c, a.readNode limit (n + 1) s id = .ok c) ↔
      (∃ node, a.node? id = some node ∧ a.Sound s node) ∧
        ∀ s' id', a.Below s id s' id' → ∃ c, a.readNode limit n s' id' = .ok c := by
  simp only [readNode_succ_eq_ok_iff]
  constructor
  · rintro ⟨_, node, children, head, cs, hnode, hchildren, hhead, hcs, -⟩
    have hnode := Scope.node_eq_ok_iff.1 hnode
    obtain ⟨hstored, hpresent⟩ := children_isOk_iff.1 ⟨children, hchildren⟩
    have hchildren := (Scope.children_eq_ok_iff.1 hchildren).1
    obtain ⟨hpayload, hnested⟩ := readHead_isOk_iff.1 ⟨head, hhead⟩
    obtain ⟨hparam, hcapture, hused, hdeclared⟩ := checkPayload_eq_ok_iff.1 hpayload
    refine ⟨⟨node, hnode, hstored, hpresent, hparam, hcapture, hused, hdeclared, ?_⟩, ?_⟩
    · intro l captures hkind
      obtain ⟨lambda, hlambda, -⟩ := hnested l captures hkind
      exact ⟨lambda, hlambda⟩
    · intro s' id' hbelow
      cases hbelow with
      | child hnode' hchildren' hc =>
        obtain rfl := Option.some.inj (hnode.symm.trans hnode')
        obtain rfl := Option.some.inj (hchildren.symm.trans hchildren')
        exact mapM_isOk_iff.1 ⟨cs, hcs⟩ _ hc
      | nested hnode' hkind hlambda hbody =>
        obtain rfl := Option.some.inj (hnode.symm.trans hnode')
        obtain ⟨lambda, hlambda', hread⟩ := hnested _ _ hkind
        obtain rfl := Option.some.inj (hlambda.symm.trans hlambda')
        exact readChild_isOk_iff.1 hread id' hbody
  · rintro ⟨⟨node, hnode, hsound⟩, hbelow⟩
    obtain ⟨children, hchildren⟩ : ∃ children, s.children a id node.kind = .ok children :=
      children_isOk_iff.2 ⟨hsound.stored, hsound.present⟩
    have hpayload : s.checkPayload id node.kind.payload = .ok () :=
      checkPayload_eq_ok_iff.2 ⟨hsound.param, hsound.capture, hsound.used, hsound.declared⟩
    have hhead : ∃ head, a.readHead (a.readNode limit n) s id node.kind = .ok head := by
      refine readHead_isOk_iff.2 ⟨hpayload, ?_⟩
      intro l captures hkind
      obtain ⟨lambda, hlambda⟩ := hsound.nested l captures hkind
      refine ⟨lambda, hlambda, readChild_isOk_iff.2 ?_⟩
      intro c hbody
      exact hbelow _ _ (.nested hnode hkind hlambda hbody)
    have hcs : ∃ cs, children.mapM (readChild (a.readNode limit n) s) = .ok cs := by
      refine mapM_isOk_iff.2 fun place hplace => readChild_isOk_iff.2 ?_
      rintro c rfl
      exact hbelow _ _ (.child hnode (Scope.children_eq_ok_iff.1 hchildren).1 hplace)
    obtain ⟨head, hhead⟩ := hhead
    obtain ⟨cs, hcs⟩ := hcs
    exact ⟨_, node, children, head, cs, Scope.node_eq_ok_iff.2 hnode, hchildren, hhead, hcs, rfl⟩

/-! ## What can be read -/

variable {l : LambdaId}

/-- What is reached from a lambda that can be read is no deeper than the
limit, and can be read with the levels that are left there. -/
theorem Reached.read {c : LambdaContent} {depth : Nat} (hread : a.readLambda limit l = .ok c)
    (h : a.Reached l depth s id) :
    ∃ left, depth + left = limit ∧ ∃ c, a.readNode limit (left + 1) s id = .ok c := by
  induction h with
  | @body lambda id hlambda hbody =>
    obtain ⟨_, hs, -, hbody'⟩ := readLambda_eq_ok_iff.1 hread
    obtain ⟨_, hlambda', rfl⟩ := scope_eq_ok_iff.1 hs
    obtain rfl := Option.some.inj (hlambda.symm.trans hlambda')
    rw [hbody, readChild_some] at hbody'
    cases limit with
    | zero => cases hbody'
    | succ limit => exact ⟨limit, Nat.add_comm 1 limit, _, hbody'⟩
  | step _ hbelow ih =>
    obtain ⟨left, hdepth, hnode⟩ := ih
    obtain ⟨c', hread'⟩ := (readNode_succ_isOk_iff.1 hnode).2 _ _ hbelow
    cases left with
    | zero => cases hread'
    | succ left => exact ⟨left, by omega, _, hread'⟩

/-- If all that is reached from a lambda is sound and no deeper than the
limit, it can be read with the levels that are left there. -/
theorem Reached.readable
    (hall : ∀ depth s id, a.Reached l depth s id →
      depth ≤ limit ∧ ∃ node, a.node? id = some node ∧ a.Sound s node)
    {depth left : Nat} (h : a.Reached l depth s id) (hdepth : depth + left = limit + 1) :
    ∃ c, a.readNode limit left s id = .ok c := by
  -- fewer levels are left for what is below, and there are always some left, because nothing is
  -- reached below the limit
  induction left generalizing depth s id with
  | zero =>
    have := (hall depth s id h).1
    omega
  | succ left ih =>
    refine readNode_succ_isOk_iff.2 ⟨(hall depth s id h).2, ?_⟩
    intro s' id' hbelow
    exact ih (h.step hbelow) (by omega)

/-- What is right below a node does not depend on the lambda that the node is
read in. -/
theorem Below.rescope {s' t : Scope} {id' : NodeId} (h : a.Below s id s' id') :
    ∃ t', a.Below t id t' id' := by
  cases h with
  | child hnode hchildren hc => exact ⟨_, .child hnode hchildren hc⟩
  | nested hnode hkind hlambda hbody => exact ⟨_, .nested hnode hkind hlambda hbody⟩

/-- If the body is reached again further down, then so is all that is reached,
as much deeper. -/
theorem Reached.again {lambda : Lambda} {body : NodeId} {t : Scope} {further depth : Nat}
    (hlambda : a.lambda? l = some lambda) (hbody : lambda.body = some body)
    (hagain : a.Reached l (1 + further) t body) (h : a.Reached l depth s id) :
    ∃ s', a.Reached l (depth + further) s' id := by
  induction h with
  | body hlambda' hbody' =>
    obtain rfl := Option.some.inj (hlambda.symm.trans hlambda')
    obtain rfl := Option.some.inj (hbody.symm.trans hbody')
    exact ⟨t, hagain⟩
  | step _ hbelow ih =>
    obtain ⟨s', hs'⟩ := ih
    obtain ⟨s'', hbelow⟩ := hbelow.rescope
    refine ⟨s'', ?_⟩
    rw [Nat.add_right_comm]
    exact hs'.step hbelow

/-- A body that is reached again further down is reached at any depth and
deeper. -/
theorem Reached.deep {lambda : Lambda} {body : NodeId} {t : Scope} {further : Nat}
    (hlambda : a.lambda? l = some lambda) (hbody : lambda.body = some body)
    (hfurther : 0 < further) (hagain : a.Reached l (1 + further) t body) (n : Nat) :
    ∃ depth s, n ≤ depth ∧ a.Reached l depth s body := by
  induction n with
  | zero => exact ⟨1, _, Nat.zero_le 1, .body hlambda hbody⟩
  | succ n ih =>
    obtain ⟨depth, s, hdepth, h⟩ := ih
    obtain ⟨s', h⟩ := Reached.again hlambda hbody hagain h
    exact ⟨depth + further, s', by omega, h⟩

/-- A lambda can be read if and only if it is registered, and all that is
reached from it is sound and no deeper than the limit. -/
theorem readLambda_isOk_iff :
    (∃ c, a.readLambda limit l = .ok c) ↔
      (∃ lambda, a.lambda? l = some lambda) ∧
        ∀ depth s id, a.Reached l depth s id →
          depth ≤ limit ∧ ∃ node, a.node? id = some node ∧ a.Sound s node := by
  constructor
  · rintro ⟨c, hread⟩
    obtain ⟨_, hs, -, -⟩ := readLambda_eq_ok_iff.1 hread
    obtain ⟨lambda, hlambda, -⟩ := scope_eq_ok_iff.1 hs
    refine ⟨⟨lambda, hlambda⟩, ?_⟩
    intro depth s id h
    obtain ⟨left, hdepth, hnode⟩ := h.read hread
    exact ⟨by omega, (readNode_succ_isOk_iff.1 hnode).1⟩
  · rintro ⟨⟨lambda, hlambda⟩, hall⟩
    have hbody : ∃ c, readChild (a.readNode limit limit) ⟨l, lambda⟩ lambda.body = .ok c := by
      refine readChild_isOk_iff.2 fun id hid => ?_
      exact Reached.readable hall (.body hlambda hid) (Nat.add_comm 1 limit)
    obtain ⟨c, hc⟩ := hbody
    exact ⟨⟨lambda.signature, c⟩,
      readLambda_eq_ok_iff.2 ⟨⟨l, lambda⟩, scope_eq_ok_iff.2 ⟨lambda, hlambda, rfl⟩, rfl, hc⟩⟩

end Arena

/-- **A lambda has a fingerprint if and only if it is registered, and all that
is reached from it is sound and no deeper than the limit.** So a lambda whose
body is reached again, through children or through the lambdas that closures
create, has none under any limit. -/
theorem lambdaHash_isOk_iff (a : Arena) (limit : Nat) (l : LambdaId) :
    ((∃ hash, a.lambdaHash limit l = .ok hash) ↔
      (∃ lambda, a.lambda? l = some lambda) ∧
        ∀ depth s id, a.Reached l depth s id →
          depth ≤ limit ∧ ∃ node, a.node? id = some node ∧ a.Sound s node) ∧
    ∀ lambda body depth s, a.lambda? l = some lambda → lambda.body = some body →
      1 < depth → a.Reached l depth s body → ∃ fault, a.lambdaHash limit l = .error fault := by
  have hread : (∃ hash, a.lambdaHash limit l = .ok hash) ↔
      ∃ c, a.readLambda limit l = .ok c := by
    rw [Arena.lambdaHash_eq_of_read]
    cases a.readLambda limit l with
    | error fault => simp
    | ok c => simp
  refine ⟨hread.trans Arena.readLambda_isOk_iff, ?_⟩
  intro lambda body depth s hlambda hbody hdepth hagain
  cases hhash : a.lambdaHash limit l with
  | error fault => exact ⟨fault, rfl⟩
  | ok hash =>
    obtain ⟨further, rfl⟩ := Nat.exists_eq_add_of_le (Nat.le_of_lt hdepth)
    obtain ⟨-, hall⟩ := Arena.readLambda_isOk_iff.1 (hread.1 ⟨hash, hhash⟩)
    obtain ⟨depth, s, hdeep, hbottom⟩ :=
      Arena.Reached.deep hlambda hbody (by omega) hagain (limit + 1)
    have := (hall depth s body hbottom).1
    omega

/-- An arena with one lambda, which does nothing but create itself. Its only
node is sound. -/
def Arena.selfCreating : Arena where
  nodes := #[⟨.closure ⟨0⟩ .empty, ⟨12⟩, .none⟩]
  lambdas := #[{ owner := .empty, target := ⟨12⟩, params := [], body := nodeAt 0 }]

/-- A lambda that creates itself has no fingerprint, while nothing is deeper
than three levels in a lambda that creates the first of the five. -/
theorem lambdaHash_of_selfCreating :
    (∀ depth s id, Arena.fiveLambdas.Reached ⟨3⟩ depth s id → depth ≤ 3) ∧
      ∃ lambda body s,
        Arena.selfCreating.lambda? ⟨0⟩ = some lambda ∧ lambda.body = some body ∧
        1 < 2 ∧ Arena.selfCreating.Reached ⟨0⟩ 2 s body ∧
        ∃ fault, Arena.selfCreating.lambdaHash 100000 ⟨0⟩ = .error fault := by
  refine ⟨?_, ?_⟩
  · have hhash := @Arena.lambdaHash_of_words Arena.fiveLambdas 3 ⟨3⟩ _ rfl
    obtain ⟨-, hall⟩ := (lambdaHash_isOk_iff Arena.fiveLambdas 3 ⟨3⟩).1.1 ⟨_, hhash⟩
    intro depth s id h
    exact (hall depth s id h).1
  · have hlambda : Arena.selfCreating.lambda? ⟨0⟩ = some _ := rfl
    have hnode : Arena.selfCreating.node? ⟨0, by decide⟩ = some _ := rfl
    have hagain := (Arena.Reached.body hlambda rfl).step (.nested hnode rfl hlambda rfl)
    exact ⟨_, _, _, hlambda, rfl, by decide, hagain,
      (lambdaHash_isOk_iff Arena.selfCreating 100000 ⟨0⟩).2 _ _ _ _ hlambda rfl (by decide) hagain⟩

end LambdaSharing
