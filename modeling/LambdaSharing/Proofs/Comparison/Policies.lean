import LambdaSharing.Proofs.Comparison.Equivalence
import LambdaSharing.Proofs.Content.Paths
import LambdaSharing.Proofs.Fingerprint.Domain

/-!
# What the policies ask for

The policy that asks for the same variables asks for everything that the
other one asks for, and for one thing more (`Arena.equivalent_identity_iff`).
What this is has to be said with care, because closures lie on both sides of
a line. The expressions that a closure passes for the captures of its lambda
belong to the body around it, and the variables in them are those of the
outer lambda, so they count. The body of the lambda that is created does not:
its captures are others, declared further in, and they are compared by place
whatever the policy.

A path through a body draws this line, for it leads into the captures of a
closure but never into its lambda. So a lambda *refers* to a capture if a
path from its body leads to a variable of it (`Arena.RefersTo`). On the side
of contents these are the uses of a capture, and the two are joined by going
along a path and down a content at once.
-/

namespace LambdaSharing

/-- Only a variable has a slot for a payload. -/
theorem NodeKind.payload_eq_slot_iff {kind : NodeKind} {slot : Slot} :
    kind.payload = .slot slot ↔ kind = .var slot := by
  cases kind <;> simp [payload]

namespace Arena

variable {a : Arena} {place : Child} {l : LambdaId} {i : UInt32}

/-- From a place, a path leads to a variable that refers to the capture in
place `i` of the capture list. -/
def RefersFrom (a : Arena) (place : Child) (i : UInt32) : Prop :=
  ∃ path id node, a.follow? place path = some (some id) ∧ a.node? id = some node ∧
    node.kind = .var (.capture i)

/-- The lambda's own body refers to the capture in place `i`. -/
def RefersTo (a : Arena) (l : LambdaId) (i : UInt32) : Prop :=
  ∃ lambda, a.lambda? l = some lambda ∧ a.RefersFrom lambda.body i

/-- What a child refers to is referred to from the place. -/
theorem RefersFrom.of_child {position : Nat} {x : Child}
    (hx : a.child? place position = some x) (h : a.RefersFrom x i) : a.RefersFrom place i := by
  obtain ⟨path, id, node, hpath, hnode, hkind⟩ := h
  exact ⟨position :: path, id, node, follow?_cons_eq_some_iff.2 ⟨x, hx, hpath⟩, hnode, hkind⟩

/-- A capture that a content uses is referred to. -/
theorem HasContent.refersFrom {c : Content} (h : a.HasContent place c) (huse : c.Uses i) :
    a.RefersFrom place i := by
  induction huse generalizing place with
  | @here tag type children =>
    cases place with
    | none => cases h.eq_absent
    | some id =>
      obtain ⟨node, _, head, _, hnode, -, hhead, -, hc⟩ := h.exists_node
      obtain ⟨rfl, -, -⟩ :=
        Head.content_inj.1 (show Head.content (.plain tag _) type children = _ from hc)
      obtain ⟨-, -, hpayload⟩ := hhead
      exact ⟨[], id, node, rfl, hnode, NodeKind.payload_eq_slot_iff.1 hpayload.symm⟩
  | @child tag payload type children c mem _ ih =>
    have h : a.HasContent place ((Head.plain tag payload).content type children) := h
    obtain ⟨position, x, hx, hcontent⟩ := h.exists_child? mem
    exact .of_child hx (ih hcontent)
  | @capture signature body type captures c mem _ ih =>
    have h : a.HasContent place ((Head.closure signature body).content type captures) := h
    obtain ⟨position, x, hx, hcontent⟩ := h.exists_child? mem
    exact .of_child hx (ih hcontent)

/-- A capture that is referred to is used by the content. -/
theorem HasContent.uses {c : Content} (h : a.HasContent place c) (href : a.RefersFrom place i) :
    c.Uses i := by
  obtain ⟨path, id, node, hpath, hnode, hkind⟩ := href
  induction path generalizing place c with
  | nil =>
    obtain rfl := Option.some.inj hpath
    obtain ⟨node', _, head, _, hnode', -, hhead, -, rfl⟩ := h.exists_node
    obtain rfl := Option.some.inj (hnode.symm.trans hnode')
    rw [Content.uses_content_iff]
    cases head with
    | plain tag payload =>
      obtain ⟨-, -, rfl⟩ := hhead
      exact .inl ⟨tag, by rw [hkind]; rfl⟩
    | closure signature body =>
      obtain ⟨_, hnested, -⟩ := hhead
      rw [hkind] at hnested
      cases hnested
  | cons position path ih =>
    obtain ⟨x, hx, hpath⟩ := follow?_cons_eq_some_iff.1 hpath
    obtain ⟨head, type, cs, d, rfl, hd, hcontent⟩ := h.child? hx
    exact Content.uses_content_iff.2 (.inr ⟨d, List.mem_of_getElem? hd, ih hcontent hpath⟩)

/-- **The captures that a content uses are those that are referred to.** -/
theorem HasLambdaContent.uses_iff {c : LambdaContent} (h : a.HasLambdaContent l c) :
    c.body.Uses i ↔ a.RefersTo l i := by
  obtain ⟨lambda, hlambda, -, hbody⟩ := h
  constructor
  · exact fun huse => ⟨lambda, hlambda, hbody.refersFrom huse⟩
  · rintro ⟨lambda', hlambda', href⟩
    obtain rfl := Option.some.inj (hlambda.symm.trans hlambda')
    exact hbody.uses href

/-! ## Captures that are referred to are there -/

/-- What a path leads to from a place that is reached is reached. -/
theorem Reached.follow? {depth : Nat} {s : Scope} {id id' : NodeId} {path : List Nat}
    (h : a.Reached l depth s id) (hpath : a.follow? (some id) path = some (some id')) :
    ∃ depth, a.Reached l depth s id' := by
  induction path generalizing depth id with
  | nil =>
    obtain rfl := Option.some.inj (Option.some.inj hpath)
    exact ⟨depth, h⟩
  | cons position path ih =>
    obtain ⟨x, hx, hpath⟩ := follow?_cons_eq_some_iff.1 hpath
    obtain ⟨_, node, children, hid, hnode, hchildren, hposition⟩ := child?_eq_some_iff.1 hx
    obtain rfl := Option.some.inj hid
    cases x with
    | none =>
      -- nothing is below a place where nothing is
      cases path <;> cases hpath
    | some c => exact ih (h.step (.child hnode hchildren (List.mem_of_getElem? hposition))) hpath

/-- A lambda that can be read captures a variable in every place that its
body refers to. -/
theorem exists_capturedVar? {limit : Nat} {c : LambdaContent} (hread : a.readLambda limit l = .ok c)
    (h : a.RefersTo l i) : ∃ var, a.capturedVar? l i = some var := by
  obtain ⟨lambda, hlambda, path, id, node, hpath, hnode, hkind⟩ := h
  have hreached : ∃ depth, a.Reached l depth ⟨l, lambda⟩ id := by
    cases hbody : lambda.body with
    | none =>
      rw [hbody] at hpath
      cases path <;> cases hpath
    | some body =>
      rw [hbody] at hpath
      exact (Reached.body hlambda hbody).follow? hpath
  obtain ⟨depth, hreached⟩ := hreached
  obtain ⟨-, node', hnode', hsound⟩ := (readLambda_isOk_iff.1 ⟨c, hread⟩).2 depth _ id hreached
  obtain rfl := Option.some.inj (hnode.symm.trans hnode')
  have hlt : i.toNat < lambda.captures.length := hsound.capture i hkind
  refine ⟨lambda.captures[i.toNat].var, ?_⟩
  simp [capturedVar?, hlambda, Lambda.capturedVar?, hlt]

/-- **The policy that asks for the same variables refines the other one**, by
exactly this: wherever the left lambda's own body refers to a capture, in the
expressions passed for the captures of a closure as well, but not inside of
nested lambdas, both lambdas capture the same variable in that place. -/
theorem equivalent_identity_iff (a : Arena) (limit : Nat) (l r : LambdaId) :
    a.compareLambdas .identity limit l r = .ok .equivalent ↔
      a.compareLambdas .positional limit l r = .ok .equivalent ∧
        ∀ i, a.RefersTo l i →
          ∃ var, a.capturedVar? l i = some var ∧ a.capturedVar? r i = some var := by
  constructor
  · intro h
    obtain ⟨c, hl, hr, hsame⟩ := equivalent_iff.1 h
    refine ⟨equivalent_iff.2 ⟨c, hl, hr, sameVariables_positional c.body⟩, ?_⟩
    intro i href
    obtain ⟨var, hvar⟩ := exists_capturedVar? hl href
    have huse := (hasLambdaContent_of_readLambda hl).uses_iff.2 href
    exact ⟨var, hvar, (hsame rfl i huse).symm.trans hvar⟩
  · rintro ⟨h, hvars⟩
    obtain ⟨c, hl, hr, -⟩ := equivalent_iff.1 h
    refine equivalent_iff.2 ⟨c, hl, hr, ?_⟩
    intro _ i huse
    obtain ⟨var, hvar, hvar'⟩ := hvars i ((hasLambdaContent_of_readLambda hl).uses_iff.1 huse)
    exact hvar.trans hvar'.symm

end Arena

end LambdaSharing
