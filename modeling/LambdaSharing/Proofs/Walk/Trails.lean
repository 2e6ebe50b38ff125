import LambdaSharing.Proofs.Fingerprint.Domain
import Mathlib.Data.List.Lex

/-!
# Trails

`Arena.Reached` says what is reached from a lambda and how deep it lies, but
not when a walk comes by. Here every place gets a *trail*: the turns that lead
down to it from the body, one at each node on the way. At a node a walk turns
into the lambda that a closure creates, or to one of the children. Trails have
the order of lists. That is the order of the walk, since a node comes before
all that is below it, and the lambda of a closure before the expressions that
are passed for its captures.

Unlike the paths of `Arena.follow?`, which end at the closures of a body,
trails lead into nested lambdas, so that a place is a node together with the
lambda it is read in. A trail leads to one place at most (`Arena.Leads.unique`),
though many trails may lead to one place, if bodies share nodes, and to a node
on a loop there is no end of them.
-/

namespace LambdaSharing

/-- Where a walk can go from a node. -/
inductive Turn where
  /-- Into the lambda that the node creates. -/
  | lambda
  /-- To the child in a position. -/
  | child (position : Nat)

namespace Turn

/-- The place of a turn among those at a node. -/
def rank : Turn → Nat
  | lambda => 0
  | child position => position + 1

theorem rank_injective : Function.Injective rank := by
  intro t u h
  cases t <;> cases u <;> simp_all [rank]

/-- A walk goes into the lambda first, and then to the children from left to
right. -/
instance : LT Turn := ⟨fun t u => t.rank < u.rank⟩

instance : Std.Trichotomous ((· < ·) : Turn → Turn → Prop) where
  trichotomous _ _ htu hut :=
    rank_injective (Nat.le_antisymm (Nat.le_of_not_lt hut) (Nat.le_of_not_lt htu))

/-- Nothing comes before the lambda. -/
theorem not_lt_lambda (t : Turn) : ¬ t < lambda := Nat.not_lt_zero t.rank

/-- Children come from left to right. -/
theorem child_lt_child_iff {i j : Nat} : child i < child j ↔ i < j := Nat.succ_lt_succ_iff

/-- Of two trails one comes first, unless they are the same. -/
theorem trails_trichotomy (trail trail' : List Turn) :
    trail < trail' ∨ trail = trail' ∨ trail' < trail :=
  trichotomous_of (List.Lex (· < ·)) trail trail'

end Turn

namespace Arena

variable {a : Arena} {l : LambdaId} {s s' t : Scope} {id id' c : NodeId} {turn : Turn}
  {trail : List Turn}

/-- A turn leads from one node to another right below it. -/
inductive Turns (a : Arena) : Scope → NodeId → Turn → Scope → NodeId → Prop where
  | lambda {s : Scope} {id c : NodeId} {node : Node} {l : LambdaId} {captures : NodeRange}
    {lambda : Lambda} (hnode : a.node? id = some node) (hkind : node.kind = .closure l captures)
    (hlambda : a.lambda? l = some lambda) (hbody : lambda.body = some c) :
    Turns a s id .lambda ⟨l, lambda⟩ c
  | child {s : Scope} {id c : NodeId} {node : Node} {children : List Child} {position : Nat}
    (hnode : a.node? id = some node) (hchildren : a.children? node.kind = some children)
    (hc : children[position]? = some (some c)) : Turns a s id (.child position) s c

/-- A trail leads from one node to another. -/
inductive Leads (a : Arena) : Scope → NodeId → List Turn → Scope → NodeId → Prop where
  | here {s : Scope} {id : NodeId} : Leads a s id [] s id
  | on {s s' s'' : Scope} {id id' id'' : NodeId} {turn : Turn} {trail : List Turn}
    (first : a.Turns s id turn s' id') (rest : Leads a s' id' trail s'' id'') :
    Leads a s id (turn :: trail) s'' id''

/-- **A walk over a lambda meets a node**, in a lambda and at the end of a
trail from the body. -/
def Met (a : Arena) (l : LambdaId) (trail : List Turn) (s : Scope) (id : NodeId) : Prop :=
  ∃ lambda body, a.lambda? l = some lambda ∧ lambda.body = some body ∧
    a.Leads ⟨l, lambda⟩ body trail s id

/-! ## Turns -/

/-- What a turn leads to is right below. -/
theorem Turns.below (h : a.Turns s id turn s' id') : a.Below s id s' id' := by
  cases h with
  | lambda hnode hkind hlambda hbody => exact .nested hnode hkind hlambda hbody
  | child hnode hchildren hc => exact .child hnode hchildren (List.mem_of_getElem? hc)

/-- The turn into the lambda of a known node. -/
theorem Turns.lambda_iff {node : Node} (hnode : a.node? id = some node) :
    a.Turns s id .lambda s' c ↔
      ∃ l captures lambda, node.kind = .closure l captures ∧ a.lambda? l = some lambda ∧
        lambda.body = some c ∧ s' = ⟨l, lambda⟩ := by
  constructor
  · intro h
    cases h with
    | lambda hnode' hkind hlambda hbody =>
      obtain rfl := Option.some.inj (hnode.symm.trans hnode')
      exact ⟨_, _, _, hkind, hlambda, hbody, rfl⟩
  · rintro ⟨l, captures, lambda, hkind, hlambda, hbody, rfl⟩
    exact .lambda hnode hkind hlambda hbody

/-- The turn to a child of a known node. -/
theorem Turns.child_iff {node : Node} {children : List Child} {position : Nat}
    (hnode : a.node? id = some node) (hchildren : a.children? node.kind = some children) :
    a.Turns s id (.child position) s' c ↔ children[position]? = some (some c) ∧ s' = s := by
  constructor
  · intro h
    cases h with
    | child hnode' hchildren' hc =>
      obtain rfl := Option.some.inj (hnode.symm.trans hnode')
      obtain rfl := Option.some.inj (hchildren.symm.trans hchildren')
      exact ⟨hc, rfl⟩
  · rintro ⟨hc, rfl⟩
    exact .child hnode hchildren hc

/-- A turn leads to one place. -/
theorem Turns.unique (h : a.Turns s id turn s' id') (h' : a.Turns s id turn t c) :
    s' = t ∧ id' = c := by
  cases h with
  | lambda hnode hkind hlambda hbody =>
    obtain ⟨l, captures, lambda, hkind', hlambda', hbody', rfl⟩ := (lambda_iff hnode).1 h'
    obtain ⟨rfl, rfl⟩ := NodeKind.closure.inj (hkind.symm.trans hkind')
    obtain rfl := Option.some.inj (hlambda.symm.trans hlambda')
    exact ⟨rfl, Option.some.inj (hbody.symm.trans hbody')⟩
  | child hnode hchildren hc =>
    obtain ⟨hc', rfl⟩ := (child_iff hnode hchildren).1 h'
    exact ⟨rfl, Option.some.inj (Option.some.inj (hc.symm.trans hc'))⟩

/-! ## Trails -/

/-- Trails go on from what the first turn leads to. -/
theorem Leads.cons_iff (h : a.Turns s id turn s' id') :
    a.Leads s id (turn :: trail) t c ↔ a.Leads s' id' trail t c := by
  constructor
  · intro hleads
    cases hleads with
    | on first rest =>
      obtain ⟨rfl, rfl⟩ := h.unique first
      exact rest
  · exact .on h

/-- **A trail leads to one place.** -/
theorem Leads.unique (h : a.Leads s id trail s' id') (h' : a.Leads s id trail t c) :
    s' = t ∧ id' = c := by
  induction h with
  | here =>
    cases h'
    exact ⟨rfl, rfl⟩
  | on first rest ih => exact ih ((Leads.cons_iff first).1 h')

/-- What a trail leads to from something that is reached is reached, deeper by
the length of the trail. -/
theorem Leads.reached {depth : Nat} (h : a.Leads s id trail s' id') (hs : a.Reached l depth s id) :
    a.Reached l (depth + trail.length) s' id' := by
  induction h generalizing depth with
  | here => exact hs
  | on first rest ih =>
    rw [List.length_cons, Nat.add_comm _ 1, ← Nat.add_assoc]
    exact ih (hs.step first.below)

/-- What is met is reached, at the depth that the trail goes down. -/
theorem Met.reached (h : a.Met l trail s id) : a.Reached l (trail.length + 1) s id := by
  obtain ⟨lambda, body, hlambda, hbody, hleads⟩ := h
  rw [Nat.add_comm]
  exact hleads.reached (.body hlambda hbody)

/-- One node is met at the end of a trail. -/
theorem Met.unique (h : a.Met l trail s id) (h' : a.Met l trail t c) : s = t ∧ id = c := by
  obtain ⟨lambda, body, hlambda, hbody, hleads⟩ := h
  obtain ⟨lambda', body', hlambda', hbody', hleads'⟩ := h'
  obtain rfl := Option.some.inj (hlambda.symm.trans hlambda')
  obtain rfl := Option.some.inj (hbody.symm.trans hbody')
  exact hleads.unique hleads'

/-- A lambda is created on the way through another one: it is the lambda of a
closure that is reached. -/
def Creates (a : Arena) (l m : LambdaId) : Prop :=
  ∃ depth s id node captures, a.Reached l depth s id ∧ a.node? id = some node ∧
    node.kind = .closure m captures

/-- What is reached from a lambda is read in that lambda, or in one that is
created on the way. -/
theorem Reached.eq_or_creates {depth : Nat} (h : a.Reached l depth s id) :
    s.id = l ∨ a.Creates l s.id := by
  induction h with
  | body hlambda hbody => exact .inl rfl
  | step h hbelow ih =>
    cases hbelow with
    | child hnode hchildren hc => exact ih
    | nested hnode hkind hlambda hbody => exact .inr ⟨_, _, _, _, _, h, hnode, hkind⟩

end Arena

end LambdaSharing
