import LambdaSharing.Proofs.Comparison.Payload
import LambdaSharing.Proofs.Content.Paths
import Mathlib.Data.List.Lex

/-!
# The first divergence

Two lambdas may differ in many places, and a comparison reports one of them.
Which one it is can be said without the walk that finds it. Signatures come
first. If they are equal, then the places of the two bodies are paired along
common paths and taken in the order of the paths, that is, a node before what
is below it and the children from left to right; and at each pair the checks
have an order of their own, the next one being looked at only if all before
it pass. `Arena.FirstDivergence` says that a divergence is the first in both
orders.

Two closures are checked as part of the pair that they are, before their
types and before the expressions passed for their captures, and what is
checked is that their lambdas say the same. So the definition leads back to
itself: where closures fail, the reason is the first divergence of the two
lambdas, with captures compared by place.

The two ways to speak about nested lambdas have to fit together, since a pair
of closures passes by contents and fails by divergences. No pair does both
(`FirstFailure.not_passes`), and with this there is at most one first
divergence (`FirstDivergence.unique`).
-/

namespace LambdaSharing

/-- The part is the first in which two signatures differ. -/
def Signature.DiffersFirstIn (l r : Signature) : SignaturePart → Prop
  | .target => l.target ≠ r.target
  | .paramTypes => l.target = r.target ∧ l.params ≠ r.params
  | .captureTypes => l.target = r.target ∧ l.params = r.params ∧ l.captures ≠ r.captures

namespace Signature

variable {l r : Signature} {part part' : SignaturePart}

/-- Signatures are compared up to the first part in which they differ. -/
theorem mismatch?_eq_some_iff : l.mismatch? r = some part ↔ l.DiffersFirstIn r part := by
  unfold mismatch?
  cases part <;> grind [DiffersFirstIn]

/-- Signatures that differ in a part differ. -/
theorem DiffersFirstIn.ne (h : l.DiffersFirstIn r part) : l ≠ r := by
  intro heq
  rw [← mismatch?_eq_some_iff, (mismatch?_eq_none_iff l r).2 heq] at h
  cases h

/-- Signatures differ first in one part only. -/
theorem DiffersFirstIn.unique (h : l.DiffersFirstIn r part) (h' : l.DiffersFirstIn r part') :
    part = part' := by
  rw [← mismatch?_eq_some_iff] at h h'
  exact Option.some.inj (h.symm.trans h')

end Signature

namespace Arena

variable {a : Arena} {p : Pairing} {x y : Child}

/-! ## What is checked at a pair of places -/

/-- At the place there is a node, and these are its children. -/
def NodeAt (a : Arena) (place : Child) (node : Node) (children : List Child) : Prop :=
  ∃ id, place = some id ∧ a.node? id = some node ∧ a.children? node.kind = some children

/-- The payloads of two nodes agree. For closures this means that their
lambdas say the same. -/
def PayloadsAgree (a : Arena) (p : Pairing) : Payload → Payload → Prop
  | .nested l, .nested r => ∃ c, a.HasLambdaContent l c ∧ a.HasLambdaContent r c
  | l, r => l = r ∧ ∀ i, l = .slot (.capture i) → p.AgreeAt i

/-- Two nodes are alike up to their children, of which they have as many. -/
structure Alike (a : Arena) (p : Pairing) (l r : Node) (ls rs : List Child) : Prop where
  tag : l.kind.tag = r.kind.tag
  payload : a.PayloadsAgree p l.kind.payload r.kind.payload
  type : l.type = r.type
  childCount : ls.length = rs.length

/-- All checks of a pair of places pass: nothing is at either place, or there
are nodes that are alike. -/
inductive Passes (a : Arena) (p : Pairing) : Child → Child → Prop where
  | absent : Passes a p none none
  | nodes {x y : Child} {l r : Node} {ls rs : List Child} (left : a.NodeAt x l ls)
      (right : a.NodeAt y r rs) (alike : a.Alike p l r ls rs) : Passes a p x y

/-- All pairs of places pass to which paths before the given one lead. -/
def PassesBefore (a : Arena) (p : Pairing) (x y : Child) (path : List Nat) : Prop :=
  ∀ before < path, ∀ x' y', a.follow? x before = some x' → a.follow? y before = some y' →
    a.Passes p x' y'

mutual

/-- The reason is the first check that fails at a pair of nodes. -/
inductive NodeFailure (a : Arena) :
    Pairing → Node → Node → List Child → List Child → DivergenceReason → Prop where
  | tag {p : Pairing} {l r : Node} {ls rs : List Child} (fails : l.kind.tag ≠ r.kind.tag) :
      NodeFailure a p l r ls rs (.kind l.kind.tag r.kind.tag)
  | payload {p : Pairing} {l r : Node} {ls rs : List Child}
      (tag : l.kind.tag = r.kind.tag) (plain : l.kind.payload.form ≠ .nested)
      (fails : ¬ a.PayloadsAgree p l.kind.payload r.kind.payload) :
      NodeFailure a p l r ls rs (l.kind.payload.mismatch r.kind.payload)
  /-- The nodes are closures, and their lambdas differ. -/
  | nested {p : Pairing} {l r : Node} {ls rs : List Child} {k m : LambdaId} {inner : Divergence}
      (left : l.kind.payload = .nested k) (right : r.kind.payload = .nested m)
      (fails : FirstDivergence a .positional k m inner) :
      NodeFailure a p l r ls rs (.nested k m inner)
  | type {p : Pairing} {l r : Node} {ls rs : List Child} (tag : l.kind.tag = r.kind.tag)
      (payload : a.PayloadsAgree p l.kind.payload r.kind.payload) (fails : l.type ≠ r.type) :
      NodeFailure a p l r ls rs (.type l.type r.type)
  | childCount {p : Pairing} {l r : Node} {ls rs : List Child}
      (tag : l.kind.tag = r.kind.tag)
      (payload : a.PayloadsAgree p l.kind.payload r.kind.payload)
      (type : l.type = r.type) (fails : ls.length ≠ rs.length) :
      NodeFailure a p l r ls rs (.childCount ls.length rs.length)

/-- The reason is the first check that fails at a pair of places. -/
inductive FirstFailure (a : Arena) : Pairing → Child → Child → DivergenceReason → Prop where
  /-- A node is at one place only. -/
  | presence {p : Pairing} {x y : Child} (fails : x.isSome ≠ y.isSome) :
      FirstFailure a p x y .presence
  | nodes {p : Pairing} {x y : Child} {l r : Node} {ls rs : List Child}
      {reason : DivergenceReason} (left : a.NodeAt x l ls) (right : a.NodeAt y r rs)
      (fails : NodeFailure a p l r ls rs reason) : FirstFailure a p x y reason

/-- **The first divergence of two lambdas.** -/
inductive FirstDivergence (a : Arena) :
    CapturePolicy → LambdaId → LambdaId → Divergence → Prop where
  /-- The signatures differ; the bodies are not looked at. -/
  | signature {policy : CapturePolicy} {k m : LambdaId} {l r : Lambda} {part : SignaturePart}
      (left : a.lambda? k = some l) (right : a.lambda? m = some r)
      (fails : l.signature.DiffersFirstIn r.signature part) :
      FirstDivergence a policy k m (.mk l.body r.body (.signature part))
  /-- The signatures are equal; a path leads to a pair of places that fails,
  and all pairs on the way and to the left of it pass. -/
  | body {policy : CapturePolicy} {k m : LambdaId} {l r : Lambda} {x y : Child}
      {reason : DivergenceReason} (path : List Nat)
      (left : a.lambda? k = some l) (right : a.lambda? m = some r)
      (signature : l.signature = r.signature)
      (toLeft : a.follow? l.body path = some x) (toRight : a.follow? r.body path = some y)
      (fails : FirstFailure a ⟨⟨k, l⟩, ⟨m, r⟩, policy⟩ x y reason)
      (earlier : a.PassesBefore ⟨⟨k, l⟩, ⟨m, r⟩, policy⟩ l.body r.body path) :
      FirstDivergence a policy k m (.mk x y reason)

end

/-! ## Passing and failing exclude each other -/

/-- A place has at most one node. -/
theorem NodeAt.unique {l r : Node} {ls rs : List Child} (h : a.NodeAt x l ls)
    (h' : a.NodeAt x r rs) : l = r ∧ ls = rs := by
  obtain ⟨id, rfl, hnode, hchildren⟩ := h
  obtain ⟨id', hid, hnode', hchildren'⟩ := h'
  obtain rfl := Option.some.inj hid
  obtain rfl := Option.some.inj (hnode.symm.trans hnode')
  exact ⟨rfl, Option.some.inj (hchildren.symm.trans hchildren')⟩

/-- Places with nodes are both taken. -/
theorem NodeAt.isSome_eq {l r : Node} {ls rs : List Child} (h : a.NodeAt x l ls)
    (h' : a.NodeAt y r rs) : x.isSome = y.isSome := by
  obtain ⟨id, rfl, -⟩ := h
  obtain ⟨id', rfl, -⟩ := h'
  rfl

/-- Payloads other than lambdas agree if they are equal, and captures agree
besides. -/
theorem payloadsAgree_of_plain {l r : Payload} (hplain : l.form ≠ .nested) :
    a.PayloadsAgree p l r ↔ l = r ∧ ∀ i, l = .slot (.capture i) → p.AgreeAt i := by
  unfold PayloadsAgree
  split
  · exact absurd rfl hplain
  · exact Iff.rfl

/-- Nodes with one head have one tag. -/
theorem HasHead.tag_eq {kind kind' : NodeKind} {head : Head} (h : a.HasHead kind head)
    (h' : a.HasHead kind' head) : kind.tag = kind'.tag := by
  cases head with
  | plain tag payload => exact h.2.1.symm.trans h'.2.1
  | closure signature body =>
    obtain ⟨k, hk, -⟩ := h
    obtain ⟨m, hm, -⟩ := h'
    exact NodeKind.tag_eq_of_nested hk hm

/-- The payloads of nodes with one head agree, if captures are compared by
place. -/
theorem HasHead.payloadsAgree {kind kind' : NodeKind} {head : Head}
    (hpolicy : p.policy = .positional) (h : a.HasHead kind head) (h' : a.HasHead kind' head) :
    a.PayloadsAgree p kind.payload kind'.payload := by
  cases head with
  | plain tag payload =>
    obtain ⟨hplain, -, rfl⟩ := h
    obtain ⟨-, -, hpayload⟩ := h'
    exact (payloadsAgree_of_plain hplain).2
      ⟨hpayload, fun i _ => Pairing.agreeAt_of_positional hpolicy i⟩
  | closure signature body =>
    obtain ⟨k, hk, hkcontent⟩ := h
    obtain ⟨m, hm, hmcontent⟩ := h'
    rw [hk, hm]
    exact ⟨_, hkcontent, hmcontent⟩

/-- **Places that say the same pass all checks**, if captures are compared by
place. -/
theorem HasContent.passes {c : Content} (hpolicy : p.policy = .positional)
    (hx : a.HasContent x c) (hy : a.HasContent y c) : a.Passes p x y := by
  cases x with
  | none =>
    cases y with
    | none => exact .absent
    | some id' => exact absurd hx.eq_absent hy.ne_absent
  | some id =>
    cases y with
    | none => exact absurd hy.eq_absent hx.ne_absent
    | some id' =>
      obtain ⟨l, ls, head, cs, hl, hls, hhead, hcs, rfl⟩ := hx.exists_node
      obtain ⟨r, rs, head', ds, hr, hrs, hhead', hds, hc⟩ := hy.exists_node
      obtain ⟨rfl, htype, rfl⟩ := Head.content_inj.1 hc
      exact .nodes ⟨id, rfl, hl, hls⟩ ⟨id', rfl, hr, hrs⟩
        ⟨hhead.tag_eq hhead', hhead.payloadsAgree hpolicy hhead', htype,
          hcs.length_eq.trans hds.length_eq.symm⟩

/-- Places that pass are both taken or both not. -/
theorem Passes.isSome_eq (h : a.Passes p x y) : x.isSome = y.isSome := by
  cases h with
  | absent => rfl
  | nodes left right => exact left.isSome_eq right

/-- Nodes that pass are alike. -/
theorem Passes.alike {l r : Node} {ls rs : List Child} (h : a.Passes p x y)
    (left : a.NodeAt x l ls) (right : a.NodeAt y r rs) : a.Alike p l r ls rs := by
  cases h with
  | absent =>
    obtain ⟨id, hid, -⟩ := left
    cases hid
  | nodes left' right' alike =>
    obtain ⟨rfl, rfl⟩ := left.unique left'
    obtain ⟨rfl, rfl⟩ := right.unique right'
    exact alike

mutual

/-- Where a check of two nodes fails, the nodes are not alike. -/
theorem NodeFailure.not_alike {p : Pairing} {l r : Node} {ls rs : List Child}
    {reason : DivergenceReason} (h : a.NodeFailure p l r ls rs reason)
    (halike : a.Alike p l r ls rs) : False := by
  match h with
  | .tag fails => exact fails halike.tag
  | .payload _ _ fails => exact fails halike.payload
  | .nested left right fails =>
    have hpayload := halike.payload
    rw [left, right] at hpayload
    obtain ⟨c, hk, hm⟩ := hpayload
    exact fails.not_hasLambdaContent rfl hk hm
  | .type _ _ fails => exact fails halike.type
  | .childCount _ _ _ fails => exact fails halike.childCount

/-- **Where a check fails, not all checks pass.** -/
theorem FirstFailure.not_passes {p : Pairing} {x y : Child} {reason : DivergenceReason}
    (h : a.FirstFailure p x y reason) (hpass : a.Passes p x y) : False := by
  match h with
  | .presence fails => exact fails hpass.isSome_eq
  | .nodes left right fails => exact fails.not_alike (hpass.alike left right)

/-- Lambdas that say the same have no divergence, if captures are compared by
place. -/
theorem FirstDivergence.not_hasLambdaContent {policy : CapturePolicy} {k m : LambdaId}
    {d : Divergence} {c : LambdaContent} (h : a.FirstDivergence policy k m d)
    (hpolicy : policy = .positional) (hk : a.HasLambdaContent k c)
    (hm : a.HasLambdaContent m c) : False := by
  obtain ⟨l', hl', hls, hlbody⟩ := hk
  obtain ⟨r', hr', hrs, hrbody⟩ := hm
  match h with
  | .signature left right fails =>
    obtain rfl := Option.some.inj (left.symm.trans hl')
    obtain rfl := Option.some.inj (right.symm.trans hr')
    exact fails.ne (hls.trans hrs.symm)
  | .body _ left right signature toLeft toRight fails _ =>
    obtain rfl := Option.some.inj (left.symm.trans hl')
    obtain rfl := Option.some.inj (right.symm.trans hr')
    obtain ⟨d, hx, hy⟩ := hlbody.follow? hrbody toLeft toRight
    exact fails.not_passes (hx.passes hpolicy hy)

end

/-- Closures whose lambdas have a divergence do not pass. -/
theorem FirstDivergence.not_payloadsAgree {k m : LambdaId} {d : Divergence} {l r : Payload}
    (h : a.FirstDivergence .positional k m d) (hl : l = .nested k) (hr : r = .nested m) :
    ¬ a.PayloadsAgree p l r := by
  subst hl hr
  rintro ⟨c, hk, hm⟩
  exact h.not_hasLambdaContent rfl hk hm

/-! ## There is only one first divergence -/

mutual

/-- One check fails first at a pair of nodes. -/
theorem NodeFailure.unique {p : Pairing} {l r : Node} {ls rs : List Child}
    {reason reason' : DivergenceReason} (h : a.NodeFailure p l r ls rs reason)
    (h' : a.NodeFailure p l r ls rs reason') : reason = reason' := by
  match h with
  | .tag fails =>
    cases h' with
    | tag => rfl
    | payload tag | type tag | childCount tag => exact absurd tag fails
    | nested left right => exact absurd (NodeKind.tag_eq_of_nested left right) fails
  | .payload tag plain fails =>
    cases h' with
    | payload => rfl
    | tag fails' => exact absurd tag fails'
    | nested left => exact absurd (congrArg Payload.form left) plain
    | type _ payload | childCount _ payload => exact absurd payload fails
  | .nested left right fails =>
    cases h' with
    | nested left' right' fails' =>
      obtain rfl := Payload.nested.inj (left.symm.trans left')
      obtain rfl := Payload.nested.inj (right.symm.trans right')
      rw [fails.unique fails']
    | tag fails' => exact absurd (NodeKind.tag_eq_of_nested left right) fails'
    | payload _ plain => exact absurd (congrArg Payload.form left) plain
    | type _ payload | childCount _ payload =>
      exact absurd payload (fails.not_payloadsAgree left right)
  | .type tag payload fails =>
    cases h' with
    | type => rfl
    | tag fails' => exact absurd tag fails'
    | payload _ _ fails' => exact absurd payload fails'
    | nested left right fails' => exact absurd payload (fails'.not_payloadsAgree left right)
    | childCount _ _ type => exact absurd type fails
  | .childCount tag payload type fails =>
    cases h' with
    | childCount => rfl
    | tag fails' => exact absurd tag fails'
    | payload _ _ fails' => exact absurd payload fails'
    | nested left right fails' => exact absurd payload (fails'.not_payloadsAgree left right)
    | type _ _ fails' => exact absurd type fails'

/-- One check fails first at a pair of places. -/
theorem FirstFailure.unique {p : Pairing} {x y : Child} {reason reason' : DivergenceReason}
    (h : a.FirstFailure p x y reason) (h' : a.FirstFailure p x y reason') :
    reason = reason' := by
  match h with
  | .presence fails =>
    cases h' with
    | presence => rfl
    | nodes left right => exact absurd (left.isSome_eq right) fails
  | .nodes left right fails =>
    cases h' with
    | presence fails' => exact absurd (left.isSome_eq right) fails'
    | nodes left' right' fails' =>
      obtain ⟨rfl, rfl⟩ := left.unique left'
      obtain ⟨rfl, rfl⟩ := right.unique right'
      exact fails.unique fails'

/-- **Two lambdas have at most one first divergence.** -/
theorem FirstDivergence.unique {policy : CapturePolicy} {k m : LambdaId} {d d' : Divergence}
    (h : a.FirstDivergence policy k m d) (h' : a.FirstDivergence policy k m d') : d = d' := by
  match h with
  | .signature left right fails =>
    cases h' with
    | signature left' right' fails' =>
      obtain rfl := Option.some.inj (left.symm.trans left')
      obtain rfl := Option.some.inj (right.symm.trans right')
      rw [fails.unique fails']
    | body _ left' right' signature =>
      obtain rfl := Option.some.inj (left.symm.trans left')
      obtain rfl := Option.some.inj (right.symm.trans right')
      exact absurd signature fails.ne
  | .body path left right signature toLeft toRight fails earlier =>
    cases h' with
    | signature left' right' fails' =>
      obtain rfl := Option.some.inj (left.symm.trans left')
      obtain rfl := Option.some.inj (right.symm.trans right')
      exact absurd signature fails'.ne
    | body path' left' right' _ toLeft' toRight' fails' earlier' =>
      obtain rfl := Option.some.inj (left.symm.trans left')
      obtain rfl := Option.some.inj (right.symm.trans right')
      -- of two pairs in different places, the earlier one passes and fails
      rcases lt_trichotomy path path' with hlt | rfl | hlt
      · exact (fails.not_passes (earlier' path hlt _ _ toLeft toRight)).elim
      · obtain rfl := Option.some.inj (toLeft.symm.trans toLeft')
        obtain rfl := Option.some.inj (toRight.symm.trans toRight')
        rw [fails.unique fails']
      · exact (fails'.not_passes (earlier path' hlt _ _ toLeft' toRight')).elim

end

end Arena

end LambdaSharing
