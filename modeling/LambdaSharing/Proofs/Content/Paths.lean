import LambdaSharing.Proofs.Content.Reading

/-!
# Paths through a body

A place in a body is found from the root by saying, at every node on the way,
which child to go to. Such a `path` is a list of positions, and
`Arena.follow?` is the place it leads to. Paths go through children only:
what a nested lambda holds is not part of the body around it, and no path
leads there.

The order of paths is that of lists, by the first position in which they
differ, and a path comes before all that go on from it. This is the order in
which a walk comes by the places of a body.

Two bodies with one content have the same paths, and a path leads to places
with one content again (`Arena.HasContent.follow?`). For this a content is
taken apart once, at the root (`Arena.HasContent.exists_node`).
-/

namespace LambdaSharing

namespace Arena

variable {a : Arena}

/-- The child in a position of the node at a place. -/
def child? (a : Arena) (place : Child) (position : Nat) : Option Child := do
  let node ← a.node? (← place)
  let children ← a.children? node.kind
  children[position]?

/-- The place to which a path leads from a place. -/
def follow? (a : Arena) : Child → List Nat → Option Child
  | place, [] => some place
  | place, position :: path => do
    a.follow? (← a.child? place position) path

/-- A place has children if there is a node. -/
theorem child?_eq_some_iff {place c : Child} {position : Nat} :
    a.child? place position = some c ↔
      ∃ id node children, place = some id ∧ a.node? id = some node ∧
        a.children? node.kind = some children ∧ children[position]? = some c := by
  unfold child?
  simp only [Option.bind_eq_bind, Option.bind_eq_some_iff]
  constructor
  · rintro ⟨id, hid, node, hnode, children, hchildren, hc⟩
    exact ⟨id, node, children, hid, hnode, hchildren, hc⟩
  · rintro ⟨id, node, children, hid, hnode, hchildren, hc⟩
    exact ⟨id, hid, node, hnode, children, hchildren, hc⟩

/-- A path leads on from the child that comes first. -/
theorem follow?_cons_eq_some_iff {place x : Child} {position : Nat} {path : List Nat} :
    a.follow? place (position :: path) = some x ↔
      ∃ c, a.child? place position = some c ∧ a.follow? c path = some x := by
  rw [follow?, Option.bind_eq_bind, Option.bind_eq_some_iff]

/-! ## Taking a content apart -/

/-- What a node of a kind says apart from its type and its children. -/
def HasHead (a : Arena) (kind : NodeKind) : Head → Prop
  | .plain tag payload => kind.payload.form ≠ .nested ∧ tag = kind.tag ∧ payload = kind.payload
  | .closure signature body =>
    ∃ l, kind.payload = .nested l ∧ a.HasLambdaContent l ⟨signature, body⟩

/-- The contents of several places are those of each. -/
theorem forall₂_hasContent_of_mapM {n : Nat} {places : List Child} {cs : List Content}
    (h : places.mapM (a.content? n) = some cs) : List.Forall₂ a.HasContent places cs := by
  induction places generalizing cs with
  | nil =>
    obtain rfl : [] = cs := by simpa using h
    exact .nil
  | cons place places ih =>
    simp only [List.mapM_cons, Option.bind_eq_bind, Option.bind_eq_some_iff] at h
    obtain ⟨c, hc, rest, hrest, hcs⟩ := h
    obtain rfl := Option.some.inj hcs
    exact .cons ⟨n, hc⟩ (ih hrest)

namespace HasContent

variable {id : NodeId} {c : Content}

/-- Nothing is said where nothing is. -/
theorem eq_absent (h : a.HasContent none c) : c = .absent := by
  obtain ⟨n, hn⟩ := h
  rw [content?] at hn
  exact (Option.some.inj hn).symm

/-- **The content of a node** is that of its head, its type and the contents
of its children. -/
theorem exists_node (h : a.HasContent (some id) c) :
    ∃ node children head cs, a.node? id = some node ∧
      a.children? node.kind = some children ∧ a.HasHead node.kind head ∧
      List.Forall₂ a.HasContent children cs ∧ c = head.content node.type cs := by
  obtain ⟨n, hn⟩ := h
  cases n with
  | zero => cases hn
  | succ n =>
    rw [content?] at hn
    simp only [Option.bind_eq_bind, Option.bind_eq_some_iff] at hn
    obtain ⟨node, hnode, children, hchildren, cs, hcs, hc⟩ := hn
    have hcs := forall₂_hasContent_of_mapM hcs
    split at hc
    · rename_i l hl
      simp only [Option.bind_eq_some_iff] at hc
      obtain ⟨lambda, hlambda, body, hbody, hc⟩ := hc
      refine ⟨node, children, .closure lambda.signature body, cs, hnode, hchildren, ?_, hcs,
        (Option.some.inj hc).symm⟩
      exact ⟨l, hl, lambda, hlambda, rfl, n, hbody⟩
    · rename_i payload hplain
      exact ⟨node, children, .plain node.kind.tag node.kind.payload, cs, hnode, hchildren,
        ⟨Payload.form_ne_nested_iff.2 hplain, rfl, rfl⟩, hcs, (Option.some.inj hc).symm⟩

/-- A node says something. -/
theorem ne_absent (h : a.HasContent (some id) c) : c ≠ .absent := by
  obtain ⟨_, _, head, _, -, -, -, -, rfl⟩ := h.exists_node
  cases head <;> exact Content.noConfusion

/-- The child in a position has the content in that position. -/
theorem child? {place x : Child} {position : Nat} (h : a.HasContent place c)
    (hx : a.child? place position = some x) :
    ∃ head type cs d, c = Head.content head type cs ∧ cs[position]? = some d ∧
      a.HasContent x d := by
  obtain ⟨id, node, children, rfl, hnode, hchildren, hposition⟩ := child?_eq_some_iff.1 hx
  obtain ⟨node', children', head, cs, hnode', hchildren', -, hcs, rfl⟩ := h.exists_node
  obtain rfl := Option.some.inj (hnode.symm.trans hnode')
  obtain rfl := Option.some.inj (hchildren.symm.trans hchildren')
  obtain ⟨hlt, rfl⟩ := List.getElem?_eq_some_iff.1 hposition
  have hlt' : position < cs.length := hcs.length_eq ▸ hlt
  exact ⟨head, node.type, cs, cs[position], rfl, List.getElem?_eq_getElem hlt',
    hcs.get hlt hlt'⟩

/-- The contents below a place are those of its children. -/
theorem exists_child? {place : Child} {head : Head} {type : TypeId} {cs : List Content}
    {d : Content} (h : a.HasContent place (head.content type cs)) (hd : d ∈ cs) :
    ∃ position x, a.child? place position = some x ∧ a.HasContent x d := by
  cases place with
  | none =>
    have := h.eq_absent
    cases head <;> cases this
  | some id =>
    obtain ⟨node, children, head', cs', hnode, hchildren, -, hcs, hc⟩ := h.exists_node
    obtain ⟨-, -, rfl⟩ := Head.content_inj.1 hc
    obtain ⟨position, hlt, rfl⟩ := List.getElem_of_mem hd
    have hlt' : position < children.length := hcs.length_eq ▸ hlt
    exact ⟨position, children[position],
      child?_eq_some_iff.2 ⟨id, node, children, rfl, hnode, hchildren,
        List.getElem?_eq_getElem hlt'⟩, hcs.get hlt' hlt⟩

/-- **Places with one content lead to places with one content**, along the
same path. -/
theorem follow? {l r x y : Child} {path : List Nat} (hl : a.HasContent l c)
    (hr : a.HasContent r c) (hx : a.follow? l path = some x) (hy : a.follow? r path = some y) :
    ∃ d, a.HasContent x d ∧ a.HasContent y d := by
  induction path generalizing l r c with
  | nil =>
    obtain rfl := Option.some.inj hx
    obtain rfl := Option.some.inj hy
    exact ⟨c, hl, hr⟩
  | cons position path ih =>
    obtain ⟨l', hl', hx⟩ := follow?_cons_eq_some_iff.1 hx
    obtain ⟨r', hr', hy⟩ := follow?_cons_eq_some_iff.1 hy
    obtain ⟨head, type, cs, d, rfl, hd, hld⟩ := hl.child? hl'
    obtain ⟨head', type', cs', d', hc, hd', hrd⟩ := hr.child? hr'
    obtain ⟨-, -, rfl⟩ := Head.content_inj.1 hc
    obtain rfl := Option.some.inj (hd.symm.trans hd')
    exact ih hld hrd hx hy

end HasContent

end Arena

end LambdaSharing
