import LambdaSharing.Comparison.Comparer
import LambdaSharing.Proofs.Comparison.Payload
import LambdaSharing.Proofs.Fingerprint.Spelling

/-!
# Walks side by side

There are several reasons to hold the same walk over two arenas, or under two
limits, against each other. More levels may be left in one of them, one arena
may have grown out of the other, or the two may differ in names only. In each
case one wants to know that the two walks come to the same; and in each case
there are some faults of the first walk that excuse the second, a refused
level or something that was not there yet.

`Follows excused R x y` says this of two answers: `y` is the fault that `x`
is, or a value that is related to that of `x`, unless `x` is an excused fault,
in which case `y` may be anything. Steps put together in sequence keep this,
so that it is carried over whole walks as soon as it holds of what they read,
the lambdas, the nodes and the lists of children (`Arena.FollowedBy`). As
nothing in this is about the reasons, the induction over the walks is done
here once.

What is read need not be equal. Walks see of a lambda what `Lambda.Alike`
lists, not its owner, and the captured variables only where the policy
`identity` asks for them; and they see nothing of a node but its kind and its
type.
-/

namespace LambdaSharing

open Comparison Fingerprint

variable {α β γ δ : Type} {excused : Fault → Prop}

/-- **The second answer follows the first.** It is the same fault or a related
value, unless the first is an excused fault. -/
inductive Follows (excused : Fault → Prop) (R : α → β → Prop) :
    Except Fault α → Except Fault β → Prop where
  | ok {v : α} {w : β} (h : R v w) : Follows excused R (.ok v) (.ok w)
  | fault (e : Fault) : Follows excused R (.error e) (.error e)
  | excuse {e : Fault} (h : excused e) (y : Except Fault β) : Follows excused R (.error e) y

namespace Follows

variable {R : α → β → Prop} {S : γ → δ → Prop} {x : Except Fault α} {y : Except Fault β}

/-- The same answer follows. -/
theorem refl (x : Except Fault α) : Follows excused Eq x x := by
  cases x with
  | error e => exact .fault e
  | ok v => exact .ok rfl

/-- What is related is related in a weaker sense. -/
theorem mono {R' : α → β → Prop} (h : Follows excused R x y) (hR : ∀ v w, R v w → R' v w) :
    Follows excused R' x y := by
  cases h with
  | ok hvw => exact .ok (hR _ _ hvw)
  | fault e => exact .fault e
  | excuse he y => exact .excuse he y

/-- Two steps, one after the other, are one step. -/
theorem bind {f : α → Except Fault γ} {g : β → Except Fault δ} (h : Follows excused R x y)
    (hfg : ∀ v w, R v w → Follows excused S (f v) (g w)) :
    Follows excused S (x >>= f) (y >>= g) := by
  cases h with
  | ok hvw => exact hfg _ _ hvw
  | fault e => exact .fault e
  | excuse he y => exact .excuse he _

/-- A plain function on both sides. -/
theorem map {f : α → γ} {g : β → δ} (h : Follows excused R x y)
    (hfg : ∀ v w, R v w → S (f v) (g w)) : Follows excused S (x.map f) (y.map g) := by
  cases h with
  | ok hvw => exact .ok (hfg _ _ hvw)
  | fault e => exact .fault e
  | excuse he y => exact .excuse he _

/-- The same step for every entry of a list. -/
theorem mapM {f : γ → Except Fault α} {g : γ → Except Fault α}
    (h : ∀ v, Follows excused Eq (f v) (g v)) (vs : List γ) :
    Follows excused Eq (vs.mapM f) (vs.mapM g) := by
  induction vs with
  | nil => exact .refl _
  | cons v vs ih =>
    rw [List.mapM_cons, List.mapM_cons]
    refine (h v).bind ?_
    rintro u _ rfl
    exact ih.bind fun us us' hus => hus ▸ .refl _

/-- What follows an answer with the same value is equal to it, unless it is
excused. -/
theorem eq {x y : Except Fault α} (h : Follows excused Eq x y)
    (hx : ∀ e, x = .error e → ¬ excused e) : y = x := by
  cases h with
  | ok hvw => rw [hvw]
  | fault e => rfl
  | excuse he y => exact absurd he (hx _ rfl)

/-- What follows a value with the same value is that value. -/
theorem ok_of_ok {x y : Except Fault α} (h : Follows excused Eq x y) {v : α} (hx : x = .ok v) :
    y = .ok v :=
  (h.eq fun e he => by rw [hx] at he; cases he).trans hx

end Follows

/-! ## What walks see -/

/-- Lambdas that differ in no more than their owner, their place in the source
text and the variables that they capture. -/
structure Lambda.Alike (l m : Lambda) : Prop where
  target : l.target = m.target
  params : l.params = m.params
  captureTypes : l.captures.map (·.type) = m.captures.map (·.type)
  localCount : l.localCount = m.localCount
  body : l.body = m.body

/-- Nodes that differ in no more than their place in the source text. -/
structure Node.Alike (n m : Node) : Prop where
  kind : n.kind = m.kind
  type : n.type = m.type

/-- Scopes of one number whose lambdas are alike. -/
structure Scope.Alike (s t : Scope) : Prop where
  id : s.id = t.id
  lambda : s.lambda.Alike t.lambda

theorem Lambda.Alike.refl (l : Lambda) : l.Alike l := ⟨rfl, rfl, rfl, rfl, rfl⟩

theorem Scope.Alike.refl (s : Scope) : s.Alike s := ⟨rfl, .refl s.lambda⟩

/-- Callers see the same of lambdas that are alike. -/
theorem Lambda.Alike.signature {l m : Lambda} (h : l.Alike m) : l.signature = m.signature := by
  rw [Lambda.signature, Lambda.signature, h.target, h.params, h.captureTypes]

/-- Lambdas that are alike have as many slots. -/
theorem Lambda.Alike.slotCount? {l m : Lambda} (h : l.Alike m) (slot : Slot) :
    l.slotCount? slot = m.slotCount? slot := by
  cases slot with
  | param i => exact congrArg (fun params => some params.length) h.params
  | capture i =>
    have hlength := congrArg List.length h.captureTypes
    rw [List.length_map, List.length_map] at hlength
    exact congrArg some hlength
  | «local» i => exact congrArg (fun count => some count.toNat) h.localCount
  | symbol s => rfl

namespace Scope.Alike

variable {s t : Scope}

theorem checkSlot (h : s.Alike t) (id : NodeId) (slot : Slot) :
    s.checkSlot id slot = t.checkSlot id slot := by
  unfold Scope.checkSlot
  rw [h.lambda.slotCount?, h.id]

theorem checkLocal (h : s.Alike t) (id : NodeId) (slot : UInt32) :
    s.checkLocal id slot = t.checkLocal id slot := by
  unfold Scope.checkLocal Scope.malformed
  rw [h.lambda.localCount, h.id]

/-- A payload passes its check in one of two such scopes as in the other. -/
theorem checkPayload (h : s.Alike t) (id : NodeId) (payload : Payload) :
    s.checkPayload id payload = t.checkPayload id payload := by
  cases payload with
  | slot slot => exact h.checkSlot id slot
  | declaration slot type => exact h.checkLocal id slot
  | _ => rfl

end Scope.Alike

/-- What is read from one arena follows what is read from another: lambdas
and nodes are alike, and lists of children are the same. -/
structure Arena.FollowedBy (a : Arena) (excused : Fault → Prop) (b : Arena) : Prop where
  scope : ∀ l, Follows excused Scope.Alike (a.scope l) (b.scope l)
  node : ∀ {s t : Scope}, s.id = t.id →
    ∀ id, Follows excused Node.Alike (s.node a id) (t.node b id)
  children : ∀ {s t : Scope}, s.id = t.id →
    ∀ id kind, Follows excused Eq (s.children a id kind) (t.children b id kind)

/-- An arena is followed by itself. -/
theorem Arena.FollowedBy.refl (excused : Fault → Prop) (a : Arena) :
    a.FollowedBy excused a where
  scope l := (Follows.refl (a.scope l)).mono fun s _ hs => hs ▸ .refl s
  node {s t} h id := by
    unfold Scope.node Scope.malformed
    rw [h]
    cases a.node? id with
    | none => exact .fault _
    | some node => exact .ok ⟨rfl, rfl⟩
  children {s t} h id kind := by
    unfold Scope.children Scope.malformed
    rw [h]
    exact .refl _

/-- The levels that are left on both sides: as many under the same limit, or
more in the second walk, if the first is excused when a level is refused. -/
def Levels (excused : Fault → Prop) (limit n limit' m : Nat) : Prop :=
  limit = limit' ∧ n = m ∨ n ≤ m ∧ ∀ l cause, excused (.depthExceeded l cause)

/-- Where a level is left in the first walk, one is left in the second. -/
theorem Levels.succ {limit n limit' m : Nat} (h : Levels excused limit (n + 1) limit' m) :
    ∃ k, m = k + 1 ∧ Levels excused limit n limit' k := by
  rcases h with ⟨hlimit, rfl⟩ | ⟨hle, hexcused⟩
  · exact ⟨n, rfl, .inl ⟨hlimit, rfl⟩⟩
  · obtain ⟨k, rfl⟩ := Nat.exists_eq_add_one_of_ne_zero (Nat.ne_zero_of_lt hle)
    exact ⟨k, rfl, .inr ⟨Nat.le_of_succ_le_succ hle, hexcused⟩⟩

/-! ## Reading -/

variable {a b : Arena} {limit limit' n m : Nat} {s t : Scope}

/-- A child is read as before if nodes are. -/
theorem follows_readChild {below below' : Scope → NodeId → Except Fault Content}
    (hbelow : ∀ s t id, s.Alike t → Follows excused Eq (below s id) (below' t id))
    (hs : s.Alike t) (c : Child) :
    Follows excused Eq (readChild below s c) (readChild below' t c) := by
  cases c with
  | none => exact .refl _
  | some id => exact hbelow s t id hs

/-- A head is read as before if nodes are. -/
theorem follows_readHead {below below' : Scope → NodeId → Except Fault Content}
    (h : a.FollowedBy excused b)
    (hbelow : ∀ s t id, s.Alike t → Follows excused Eq (below s id) (below' t id))
    (hs : s.Alike t) (id : NodeId) (kind : NodeKind) :
    Follows excused Eq (a.readHead below s id kind) (b.readHead below' t id kind) := by
  by_cases hform : kind.payload.form = .nested
  · obtain ⟨l, hl⟩ := Payload.form_eq_nested_iff.1 hform
    rw [Arena.readHead_nested hl, Arena.readHead_nested hl]
    refine (h.scope l).bind fun inner inner' hinner => ?_
    rw [hinner.lambda.signature, hinner.lambda.body]
    exact (follows_readChild hbelow hinner inner'.lambda.body).bind fun _ _ hbody =>
      hbody ▸ .refl _
  · rw [Arena.readHead_plain hform, Arena.readHead_plain hform, hs.checkPayload]
    exact .refl _

/-- **A node is read as before.** -/
theorem follows_readNode (h : a.FollowedBy excused b) (hlevels : Levels excused limit n limit' m)
    (hs : s.Alike t) (id : NodeId) :
    Follows excused Eq (a.readNode limit n s id) (b.readNode limit' m t id) := by
  induction n generalizing m s t id with
  | zero =>
    rcases hlevels with ⟨rfl, rfl⟩ | ⟨-, hexcused⟩
    · rw [Arena.readNode, Arena.readNode, hs.id]
      exact .fault _
    · exact .excuse (hexcused s.id ⟨limit⟩) _
  | succ n ih =>
    obtain ⟨m, rfl, hleft⟩ := hlevels.succ
    have hbelow := fun s t id hs => @ih m s t hleft hs id
    rw [Arena.readNode, Arena.readNode]
    refine (h.node hs.id id).bind fun node node' hnode => ?_
    rw [hnode.kind, hnode.type]
    refine (h.children hs.id id node'.kind).bind fun children _ hchildren => hchildren ▸ ?_
    refine (follows_readHead h hbelow hs id node'.kind).bind fun head _ hhead => hhead ▸ ?_
    exact (Follows.mapM (follows_readChild hbelow hs) children).bind fun _ _ hcs => hcs ▸ .refl _

/-- A lambda is read as before. -/
theorem follows_readLambda (h : a.FollowedBy excused b)
    (hlevels : Levels excused limit limit limit' limit') (l : LambdaId) :
    Follows excused Eq (a.readLambda limit l) (b.readLambda limit' l) := by
  rw [Arena.readLambda, Arena.readLambda]
  refine (h.scope l).bind fun s t hs => ?_
  rw [hs.lambda.signature, hs.lambda.body]
  exact (follows_readChild (fun _ _ id hs => follows_readNode h hlevels hs id) hs
    t.lambda.body).bind fun _ _ hbody => hbody ▸ .refl _

/-! ## Comparing -/

/-- Captures that are compared by place match if they are there and of one
type. -/
theorem Binding.capturesMatch_positional_iff {l r : Lambda} {i : UInt32} :
    capturesMatch ⟨l, r, .positional⟩ i = true ↔
      ∃ type, (l.captures.map (·.type))[i.toNat]? = some type ∧
        (r.captures.map (·.type))[i.toNat]? = some type := by
  rw [capturesMatch_eq_true_iff]
  simp only [List.getElem?_map, Option.map_eq_some_iff]
  constructor
  · rintro ⟨c, d, hc, hd, htype, -⟩
    exact ⟨d.type, ⟨c, hc, htype⟩, d, hd, rfl⟩
  · rintro ⟨_, ⟨c, hc, rfl⟩, d, hd, htype⟩
    exact ⟨c, d, hc, hd, htype.symm, nofun⟩

/-- Pairings in which the same slots match, of lambdas that are alike. -/
structure Pairing.Alike (p q : Pairing) : Prop where
  left : p.left.Alike q.left
  right : p.right.Alike q.right
  slotsMatch : ∀ l r, p.binding.slotsMatch l r = q.binding.slotsMatch l r

namespace Pairing.Alike

theorem refl (p : Pairing) : p.Alike p := ⟨.refl p.left, .refl p.right, fun _ _ => rfl⟩

/-- Where captures are compared by place, it is enough that the lambdas are
alike. -/
theorem positional {s s' t t' : Scope} (hs : s.Alike s') (ht : t.Alike t') :
    Alike ⟨s, t, .positional⟩ ⟨s', t', .positional⟩ := by
  refine ⟨hs, ht, fun l r => ?_⟩
  cases l with
  | capture i =>
    cases r with
    | capture j =>
      refine congrArg (i == j && ·) ?_
      show Binding.capturesMatch ⟨s.lambda, t.lambda, .positional⟩ i =
        Binding.capturesMatch ⟨s'.lambda, t'.lambda, .positional⟩ i
      rw [Bool.eq_iff_iff, Binding.capturesMatch_positional_iff,
        Binding.capturesMatch_positional_iff, hs.lambda.captureTypes, ht.lambda.captureTypes]
    | _ => rfl
  | _ => cases r <;> rfl

/-- The same payloads match. -/
theorem payloadsMatch {p q : Pairing} (h : p.Alike q) (l r : Payload) :
    p.payloadsMatch l r = q.payloadsMatch l r := by
  cases l with
  | slot s =>
    cases r with
    | slot t => exact h.slotsMatch s t
    | _ => rfl
  | _ => rfl

end Pairing.Alike

namespace Comparison

/-- Steps that report the same, or lead to the same nodes in pairings that are
alike. -/
inductive Step.Alike : Step → Step → Prop where
  | report (d : Divergence) : Alike (.report d) (.report d)
  | pair {p q : Pairing} (h : p.Alike q) (left right : NodeId) (sites : List ClosureSite) :
    Alike (.pair p left right sites) (.pair q left right sites)

variable {p q : Pairing}

/-- Steps are alike inside a pair of closures. -/
theorem Step.Alike.inside {x y : Step} (h : x.Alike y) (site : ClosureSite) :
    (x.inside site).Alike (y.inside site) := by
  cases h with
  | report d => exact .report _
  | pair h left right sites => exact .pair h left right _

/-- What is required is required in any pairing. -/
theorem alike_require (left right : NodeId) (ok : Bool) (otherwise : DivergenceReason) :
    List.Forall₂ Step.Alike (require left right ok otherwise)
      (require left right ok otherwise) := by
  cases ok with
  | true => exact .nil
  | false => exact .cons (.report _) .nil

theorem alike_childSteps (h : p.Alike q) (l r : Child) :
    List.Forall₂ Step.Alike (childSteps p l r) (childSteps q l r) := by
  cases l with
  | none =>
    cases r with
    | none => exact .nil
    | some r => exact .cons (.report _) .nil
  | some l =>
    cases r with
    | none => exact .cons (.report _) .nil
    | some r => exact .cons (.pair h l r []) .nil

theorem alike_childrenSteps (h : p.Alike q) (ls rs : List Child) :
    List.Forall₂ Step.Alike (childrenSteps p ls rs) (childrenSteps q ls rs) := by
  induction ls generalizing rs with
  | nil => exact .nil
  | cons l ls ih =>
    cases rs with
    | nil => exact .nil
    | cons r rs => exact List.rel_append (alike_childSteps h l r) (ih rs)

theorem alike_lambdaSteps (h : p.Alike q) :
    List.Forall₂ Step.Alike (lambdaSteps p) (lambdaSteps q) := by
  rw [lambdaSteps, lambdaSteps, h.left.lambda.signature, h.left.lambda.body,
    h.right.lambda.signature, h.right.lambda.body]
  cases q.left.lambda.signature.mismatch? q.right.lambda.signature with
  | some part => exact .cons (.report _) .nil
  | none => exact alike_childSteps h _ _

variable {below below' : Pairing → NodeId → NodeId → Except Fault (Option Divergence)}
  {left right : NodeId}

/-- Payloads are compared as before. -/
theorem follows_payloadSteps (h : a.FollowedBy excused b) (hp : p.Alike q) {kind kind' : NodeKind}
    (htag : kind.tag = kind'.tag) :
    Follows excused (List.Forall₂ Step.Alike)
      (payloadSteps a p left right kind.payload kind'.payload)
      (payloadSteps b q left right kind.payload kind'.payload) := by
  rcases NodeKind.nested_or_plain htag with ⟨l, r, hl, hr⟩ | ⟨hform, hplain⟩
  · rw [hl, hr, payloadSteps, payloadSteps]
    refine (h.scope l).bind fun ls ls' hls => (h.scope r).bind fun rs rs' hrs => .ok ?_
    rw [List.forall₂_map_left_iff, List.forall₂_map_right_iff]
    -- nested lambdas are compared by place, whatever the policy
    exact (alike_lambdaSteps (.positional hls hrs)).imp fun x y hxy => hxy.inside _
  · rw [payloadSteps_of_plain hform hplain, payloadSteps_of_plain hform hplain,
      hp.left.checkPayload, hp.right.checkPayload, hp.payloadsMatch]
    exact (Follows.refl _).bind fun _ _ _ => (Follows.refl _).bind fun _ _ _ =>
      .ok (alike_require left right _ _)

/-- Two nodes are compared in steps that are alike. -/
theorem follows_pairSteps (h : a.FollowedBy excused b) (hp : p.Alike q) :
    Follows excused (List.Forall₂ Step.Alike) (pairSteps a p left right)
      (pairSteps b q left right) := by
  unfold pairSteps
  refine (h.node hp.left.id left).bind fun l l' hl => ?_
  refine (h.node hp.right.id right).bind fun r r' hr => ?_
  rw [hl.kind, hl.type, hr.kind, hr.type]
  refine (h.children hp.left.id left l'.kind).bind fun ls _ hls => hls ▸ ?_
  refine (h.children hp.right.id right r'.kind).bind fun rs _ hrs => hrs ▸ ?_
  by_cases htag : l'.kind.tag = r'.kind.tag
  · rw [if_neg (not_not_intro htag), if_neg (not_not_intro htag)]
    refine (follows_payloadSteps h hp htag).bind fun steps steps' hsteps => .ok ?_
    exact List.rel_append (List.rel_append (List.rel_append hsteps (alike_require ..))
      (alike_require ..)) (alike_childrenSteps hp ls rs)
  · rw [if_pos htag, if_pos htag]
    exact .ok (alike_require ..)

/-- Steps that are alike come to the same as before if pairs of nodes do. -/
theorem follows_firstWith
    (hbelow : ∀ p q l r, p.Alike q → Follows excused Eq (below p l r) (below' q l r))
    {xs ys : List Step} (h : List.Forall₂ Step.Alike xs ys) :
    Follows excused Eq (firstWith below xs) (firstWith below' ys) := by
  induction h with
  | nil => exact .refl _
  | cons hstep _ ih =>
    cases hstep with
    | report d => exact .refl _
    | pair hp left right sites =>
      rw [firstWith, firstWith]
      refine (hbelow _ _ left right hp).bind fun found _ hfound => hfound ▸ ?_
      cases found with
      | none => exact ih
      | some d => exact .refl _

/-- **Two nodes are compared as before.** -/
theorem follows_pairDivergence (h : a.FollowedBy excused b)
    (hlevels : Levels excused limit n limit' m) (hp : p.Alike q) (left right : NodeId) :
    Follows excused Eq (pairDivergence a limit n p left right)
      (pairDivergence b limit' m q left right) := by
  induction n generalizing m p q left right with
  | zero =>
    rcases hlevels with ⟨rfl, rfl⟩ | ⟨-, hexcused⟩
    · rw [pairDivergence, pairDivergence, hp.left.id]
      exact .fault _
    · exact .excuse (hexcused p.left.id ⟨limit⟩) _
  | succ n ih =>
    obtain ⟨m, rfl, hleft⟩ := hlevels.succ
    rw [pairDivergence, pairDivergence]
    exact (follows_pairSteps h hp).bind fun steps steps' hsteps =>
      follows_firstWith (fun p q l r hp => ih hleft hp l r) hsteps

/-- Two lambdas are compared as before, if what is read of them makes pairings
that are alike. -/
theorem follows_lambdaDivergence {R : Scope → Scope → Prop} {policy : CapturePolicy}
    (h : a.FollowedBy excused b) (hlevels : Levels excused limit limit limit' limit')
    (hscope : ∀ l, Follows excused R (a.scope l) (b.scope l))
    (hR : ∀ s s' t t', R s s' → R t t' → Pairing.Alike ⟨s, t, policy⟩ ⟨s', t', policy⟩)
    (l r : LambdaId) :
    Follows excused Eq (lambdaDivergence a policy limit l r)
      (lambdaDivergence b policy limit' l r) := by
  unfold lambdaDivergence
  exact (hscope l).bind fun s s' hs => (hscope r).bind fun t t' ht =>
    follows_firstWith (fun p q l r hp => follows_pairDivergence h hlevels hp l r)
      (alike_lambdaSteps (hR s s' t t' hs ht))

end Comparison

/-! ## Fingerprints and comparisons -/

/-- The fingerprint of a signature is mixed from its words. -/
theorem Arena.signatureHash_eq (a : Arena) (l : LambdaId) :
    a.signatureHash l =
      (a.scope l).map fun s => ofWords (signatureWords s.lambda.signature) := by
  unfold signatureHash Hasher.signatureHash
  cases a.scope l <;> rfl

/-- The fingerprint of a lambda is as before. -/
theorem follows_lambdaHash (h : a.FollowedBy excused b)
    (hlevels : Levels excused limit limit limit' limit') (l : LambdaId) :
    Follows excused Eq (a.lambdaHash limit l) (b.lambdaHash limit' l) := by
  rw [Arena.lambdaHash_eq_of_read, Arena.lambdaHash_eq_of_read]
  exact (follows_readLambda h hlevels l).map fun c d hcd => by rw [hcd]

/-- The fingerprint of a body is as before. -/
theorem follows_bodyHash (h : a.FollowedBy excused b)
    (hlevels : Levels excused limit limit limit' limit') (l : LambdaId) :
    Follows excused Eq (a.bodyHash limit l) (b.bodyHash limit' l) := by
  rw [Arena.bodyHash_eq_of_read, Arena.bodyHash_eq_of_read]
  exact (follows_readLambda h hlevels l).map fun c d hcd => by rw [hcd]

/-- The fingerprint of a signature is as before. -/
theorem follows_signatureHash (h : a.FollowedBy excused b) (l : LambdaId) :
    Follows excused Eq (a.signatureHash l) (b.signatureHash l) := by
  rw [Arena.signatureHash_eq, Arena.signatureHash_eq]
  exact (h.scope l).map fun s t hs => by rw [hs.lambda.signature]

/-- A comparison comes to the same as before, under the conditions of
`follows_lambdaDivergence`. -/
theorem follows_compareLambdas {R : Scope → Scope → Prop} {policy : CapturePolicy}
    (h : a.FollowedBy excused b) (hlevels : Levels excused limit limit limit' limit')
    (hscope : ∀ l, Follows excused R (a.scope l) (b.scope l))
    (hR : ∀ s s' t t', R s s' → R t t' → Pairing.Alike ⟨s, t, policy⟩ ⟨s', t', policy⟩)
    (l r : LambdaId) :
    Follows excused Eq (a.compareLambdas policy limit l r)
      (b.compareLambdas policy limit' l r) := by
  rw [Arena.compareLambdas_eq, Arena.compareLambdas_eq]
  exact (follows_lambdaDivergence h hlevels hscope hR l r).map fun c d hcd => by rw [hcd]

end LambdaSharing
