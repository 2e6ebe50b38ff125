import LambdaSharing.Comparison.Comparer
import LambdaSharing.Proofs.Comparison.Payload

/-!
# Comparing the other way round

Which of two lambdas is the left one should not matter. That equivalence is
symmetric follows from what equivalence means; but there is more to a
comparison than its verdict. The walk reads the left node before the right
one, checks the left slot first, looks captures up by the left index and
holds refused levels against the left body. None of this is symmetric, and in
one respect it shows: of two faults, the one on the left is reported, so that
the two ways round may report different ones.

That is all there is to it. The two walks go through the same pairs of nodes
in the same order, each pair the other way round (`Step.swap`), and what one
of them finds the other finds seen from the other side (`Mirrored`). Where
one stops with a fault the other stops as well, with a fault of its own.
-/

namespace LambdaSharing

variable {α β γ δ : Type}

/-- Both computations stop with a fault, or the second ends with what `f`
makes of the end of the first. -/
inductive Mirrored (f : α → β) : Except Fault α → Except Fault β → Prop where
  | fault (e e' : Fault) : Mirrored f (.error e) (.error e')
  | ok (x : α) : Mirrored f (.ok x) (.ok (f x))

namespace Mirrored

/-- Computations that end as they should. -/
theorem of_eq {f : α → β} {x : α} {y : β} (h : f x = y) : Mirrored f (pure x) (pure y) :=
  h ▸ .ok x

/-- Two steps, one after the other, are one step. -/
theorem bind {f : α → β} {g : γ → δ} {x : Except Fault α} {y : Except Fault β}
    {k : α → Except Fault γ} {k' : β → Except Fault δ} (h : Mirrored f x y)
    (hk : ∀ v, Mirrored g (k v) (k' (f v))) : Mirrored g (x >>= k) (y >>= k') := by
  cases h with
  | fault e e' => exact .fault e e'
  | ok v => exact hk v

/-- It does not matter which of two steps is taken first, except for which
fault is reported if both stop. -/
theorem either_order {f : γ → δ} (x : Except Fault α) (y : Except Fault β)
    {k : α → β → Except Fault γ} {k' : α → β → Except Fault δ}
    (h : ∀ u v, Mirrored f (k u v) (k' u v)) :
    Mirrored f (x >>= fun u => y >>= fun v => k u v) (y >>= fun v => x >>= fun u => k' u v) := by
  cases x with
  | error e => cases y <;> exact .fault _ _
  | ok u =>
    cases y with
    | error e => exact .fault e e
    | ok v => exact h u v

/-- A plain function on both sides. -/
theorem map {f : α → β} {g : γ → δ} {u : α → γ} {v : β → δ} {x : Except Fault α}
    {y : Except Fault β} (h : Mirrored f x y) (huv : ∀ z, v (f z) = g (u z)) :
    Mirrored g (x.map u) (y.map v) := by
  cases h with
  | fault e e' => exact .fault e e'
  | ok z =>
    rw [map_ok, map_ok, huv]
    exact .ok (u z)

/-- One of the two stops with a fault exactly if the other does. -/
theorem exists_error_iff {f : α → β} {x : Except Fault α} {y : Except Fault β}
    (h : Mirrored f x y) : (∃ e, x = .error e) ↔ ∃ e, y = .error e := by
  cases h <;> simp

/-- One of the two ends with a value exactly if the other ends with what is
made of it. -/
theorem eq_ok_iff {f : α → β} (hf : ∀ v w, f v = f w → v = w) {x : Except Fault α}
    {y : Except Fault β} (h : Mirrored f x y) (v : α) : x = .ok v ↔ y = .ok (f v) := by
  cases h with
  | fault e e' => simp
  | ok w =>
    rw [Except.ok.injEq, Except.ok.injEq]
    exact ⟨congrArg f, hf w v⟩

end Mirrored

/-! ## Seen from the other side -/

mutual

/-- Seen from the other side twice, a divergence is as it was. -/
theorem Divergence.swap_swap : ∀ d : Divergence, d.swap.swap = d
  | .mk left right reason => by
    rw [Divergence.swap, Divergence.swap, DivergenceReason.swap_swap reason]

theorem DivergenceReason.swap_swap : ∀ reason : DivergenceReason, reason.swap.swap = reason
  | .nested l r inner => by
    rw [DivergenceReason.swap, DivergenceReason.swap, Divergence.swap_swap inner]
  | .kind .. | .type .. | .slot .. | .childCount .. | .signature _ | .literal | .symbol
  | .operator | .declaration | .presence => rfl

end

/-- Seen from the other side twice, an outcome is as it was. -/
theorem Outcome.swap_swap (outcome : Outcome) : outcome.swap.swap = outcome := by
  cases outcome with
  | equivalent => rfl
  | diverged d => exact congrArg diverged d.swap_swap

/-- The outcome with a given first divergence, from the other side. -/
theorem Outcome.swap_ofDivergence? (found : Option Divergence) :
    ofDivergence? (found.map Divergence.swap) = (ofDivergence? found).swap := by
  cases found <;> rfl

/-- Two signatures differ first in the same part, from either side. -/
theorem Signature.mismatch?_comm (l r : Signature) : l.mismatch? r = r.mismatch? l := by
  unfold mismatch?
  simp only [ne_comm (a := l.target), ne_comm (a := l.params), ne_comm (a := l.captures)]

/-- The pairing seen from the other side. -/
def Pairing.swap (p : Pairing) : Pairing := ⟨p.right, p.left, p.policy⟩

/-- Captures match from either side. -/
theorem Binding.capturesMatch_comm (l r : Lambda) (policy : CapturePolicy) (i : UInt32) :
    capturesMatch ⟨r, l, policy⟩ i = capturesMatch ⟨l, r, policy⟩ i := by
  unfold capturesMatch
  cases l.captures[i.toNat]? with
  | none => cases r.captures[i.toNat]? <;> rfl
  | some c =>
    cases r.captures[i.toNat]? with
    | none => rfl
    | some d =>
      show (d.type == c.type && (policy == .positional || d.var == c.var)) = _
      rw [BEq.comm (a := d.type), BEq.comm (a := d.var)]

/-- Slots match from either side. -/
theorem Pairing.slotsMatch_swap (p : Pairing) (s t : Slot) :
    p.swap.binding.slotsMatch t s = p.binding.slotsMatch s t := by
  cases s <;> cases t <;> try rfl
  case param.param i j => exact BEq.comm
  case local.local i j => exact BEq.comm
  case symbol.symbol s t => exact BEq.comm
  case capture.capture i j =>
    show (j == i && p.swap.binding.capturesMatch j) = (i == j && p.binding.capturesMatch i)
    by_cases h : i = j
    · rw [h]
      exact congrArg _ (Binding.capturesMatch_comm _ _ _ j)
    · rw [beq_false_of_ne h, beq_false_of_ne (Ne.symm h)]
      rfl

/-- Payloads match from either side. -/
theorem Pairing.payloadsMatch_swap (p : Pairing) (l r : Payload) :
    p.swap.payloadsMatch r l = p.payloadsMatch l r := by
  cases l with
  | slot s =>
    cases r with
    | slot t => exact p.slotsMatch_swap s t
    | _ => rfl
  | _ => cases r <;> exact BEq.comm

/-- In what payloads differ, from the other side. -/
theorem Payload.swap_mismatch (l r : Payload) : (l.mismatch r).swap = r.mismatch l := by
  cases l <;> cases r <;> rfl

namespace Comparison

/-- Two closures seen from the other side. -/
def ClosureSite.swap (site : ClosureSite) : ClosureSite :=
  ⟨site.right, site.left, site.rightLambda, site.leftLambda⟩

/-- A step seen from the other side. -/
def Step.swap : Step → Step
  | report d => report d.swap
  | pair p left right sites => pair p.swap right left (sites.map ClosureSite.swap)

/-- A divergence that is reported at closures, from the other side. -/
theorem swap_encloseAll (sites : List ClosureSite) (d : Divergence) :
    (encloseAll sites d).swap = encloseAll (sites.map ClosureSite.swap) d.swap := by
  induction sites with
  | nil => rfl
  | cons site sites ih =>
    show ClosureSite.enclose site.swap (encloseAll sites d).swap = _
    rw [ih]
    rfl

/-- A step inside closures, from the other side. -/
theorem swap_inside (site : ClosureSite) (step : Step) :
    (step.inside site).swap = step.swap.inside site.swap := by
  cases step <;> rfl

/-! ## The steps, the other way round -/

variable {p : Pairing}

theorem swap_require (left right : NodeId) (ok : Bool) (reason : DivergenceReason) :
    (require left right ok reason).map Step.swap = require right left ok reason.swap := by
  cases ok <;> rfl

theorem swap_childSteps (l r : Child) :
    (childSteps p l r).map Step.swap = childSteps p.swap r l := by
  cases l <;> cases r <;> rfl

theorem swap_childrenSteps (ls rs : List Child) :
    (childrenSteps p ls rs).map Step.swap = childrenSteps p.swap rs ls := by
  induction ls generalizing rs with
  | nil => cases rs <;> rfl
  | cons l ls ih =>
    cases rs with
    | nil => rfl
    | cons r rs =>
      show (childSteps p l r ++ childrenSteps p ls rs).map Step.swap =
        childSteps p.swap r l ++ childrenSteps p.swap rs ls
      rw [List.map_append, swap_childSteps, ih]

theorem swap_lambdaSteps : (lambdaSteps p).map Step.swap = lambdaSteps p.swap := by
  have hpart : p.swap.left.lambda.signature.mismatch? p.swap.right.lambda.signature =
      p.left.lambda.signature.mismatch? p.right.lambda.signature := Signature.mismatch?_comm _ _
  rw [lambdaSteps, lambdaSteps, hpart]
  cases p.left.lambda.signature.mismatch? p.right.lambda.signature with
  | some part => rfl
  | none => exact swap_childSteps _ _

/-! ## The walk, the other way round -/

variable {a : Arena} {left right : NodeId}

/-- The steps for two payloads, the other way round. -/
theorem mirrored_payloadSteps {kind kind' : NodeKind} (htag : kind.tag = kind'.tag) :
    Mirrored (List.map Step.swap) (payloadSteps a p left right kind.payload kind'.payload)
      (payloadSteps a p.swap right left kind'.payload kind.payload) := by
  rcases NodeKind.nested_or_plain htag with ⟨l, r, hl, hr⟩ | ⟨hform, hplain⟩
  · rw [hl, hr, payloadSteps, payloadSteps]
    refine Mirrored.either_order (a.scope l) (a.scope r) fun ls rs => .of_eq ?_
    calc ((lambdaSteps ⟨ls, rs, .positional⟩).map (Step.inside ⟨left, right, l, r⟩)).map Step.swap
      _ = ((lambdaSteps ⟨ls, rs, .positional⟩).map Step.swap).map
            (Step.inside ⟨right, left, r, l⟩) := by
        rw [List.map_map, List.map_map]
        exact List.map_congr_left fun step _ => swap_inside ⟨left, right, l, r⟩ step
      _ = (lambdaSteps ⟨rs, ls, .positional⟩).map (Step.inside ⟨right, left, r, l⟩) := by
        rw [swap_lambdaSteps]
        rfl
  · rw [payloadSteps_of_plain hform hplain, payloadSteps_of_plain hform.symm (hform ▸ hplain)]
    refine Mirrored.either_order (p.left.checkPayload left kind.payload)
      (p.right.checkPayload right kind'.payload) fun _ _ => .of_eq ?_
    rw [Pairing.payloadsMatch_swap, swap_require, Payload.swap_mismatch]

/-- The steps for two nodes, the other way round. -/
theorem mirrored_pairSteps :
    Mirrored (List.map Step.swap) (pairSteps a p left right) (pairSteps a p.swap right left) := by
  unfold pairSteps
  refine Mirrored.either_order (p.left.node a left) (p.right.node a right) fun l r => ?_
  refine Mirrored.either_order (p.left.children a left l.kind) (p.right.children a right r.kind)
    fun ls rs => ?_
  by_cases htag : l.kind.tag = r.kind.tag
  · rw [if_neg (not_not_intro htag), if_neg (not_not_intro htag.symm)]
    refine (mirrored_payloadSteps htag).bind fun payload => .of_eq ?_
    rw [List.map_append, List.map_append, List.map_append, swap_require, swap_require,
      swap_childrenSteps, BEq.comm (a := l.type), BEq.comm (a := ls.length)]
    rfl
  · rw [if_pos htag, if_pos (Ne.symm htag)]
    exact .of_eq (swap_require left right false (.kind l.kind.tag r.kind.tag))

variable {below : Pairing → NodeId → NodeId → Except Fault (Option Divergence)}

/-- What steps come to, the other way round, if that holds for pairs of
nodes. -/
theorem mirrored_firstWith
    (h : ∀ p l r, Mirrored (Option.map Divergence.swap) (below p l r) (below p.swap r l))
    (steps : List Step) :
    Mirrored (Option.map Divergence.swap) (firstWith below steps)
      (firstWith below (steps.map Step.swap)) := by
  induction steps with
  | nil => exact .ok none
  | cons step rest ih =>
    cases step with
    | report d => exact .ok (some d)
    | pair p left right sites =>
      rw [List.map_cons, Step.swap, firstWith, firstWith]
      refine (h p left right).bind fun found => ?_
      cases found with
      | none => exact ih
      | some d => exact .of_eq (congrArg some (swap_encloseAll sites d))

/-- **Two nodes are compared the other way round** in the same steps,
whatever levels are left for them. -/
theorem mirrored_pairDivergence (a : Arena) (limit n : Nat) (p : Pairing) (left right : NodeId) :
    Mirrored (Option.map Divergence.swap) (pairDivergence a limit n p left right)
      (pairDivergence a limit n p.swap right left) := by
  induction n generalizing p left right with
  | zero => exact .fault _ _
  | succ n ih =>
    rw [pairDivergence, pairDivergence]
    exact mirrored_pairSteps.bind fun steps => mirrored_firstWith ih steps

/-- Two lambdas are compared the other way round in the same steps. -/
theorem mirrored_lambdaDivergence (a : Arena) (policy : CapturePolicy) (limit : Nat)
    (l r : LambdaId) :
    Mirrored (Option.map Divergence.swap) (lambdaDivergence a policy limit l r)
      (lambdaDivergence a policy limit r l) := by
  unfold lambdaDivergence
  refine Mirrored.either_order (a.scope l) (a.scope r) fun ls rs => ?_
  have hsteps : (lambdaSteps ⟨ls, rs, policy⟩).map Step.swap = lambdaSteps ⟨rs, ls, policy⟩ :=
    swap_lambdaSteps
  rw [← hsteps]
  exact mirrored_firstWith (mirrored_pairDivergence a limit limit) _

end Comparison

/-- **A comparison the other way round comes to the same, seen from the other
side.** It stops with a fault if and only if the first one does, though not
always with the same; it finds the lambdas equivalent if and only if the
first one does; and otherwise it finds the same divergence, with left and
right exchanged in the nodes, in the reason, and in the divergences of nested
lambdas in turn. -/
theorem Arena.compareLambdas_swap (a : Arena) (policy : CapturePolicy) (limit : Nat)
    (l r : LambdaId) :
    ((∃ e, a.compareLambdas policy limit l r = .error e) ↔
        ∃ e, a.compareLambdas policy limit r l = .error e) ∧
      (a.compareLambdas policy limit l r = .ok .equivalent ↔
        a.compareLambdas policy limit r l = .ok .equivalent) ∧
      ∀ d, a.compareLambdas policy limit l r = .ok (.diverged d) ↔
        a.compareLambdas policy limit r l = .ok (.diverged d.swap) := by
  have h : Mirrored Outcome.swap (a.compareLambdas policy limit l r)
      (a.compareLambdas policy limit r l) := by
    rw [compareLambdas_eq, compareLambdas_eq]
    exact (Comparison.mirrored_lambdaDivergence a policy limit l r).map
      Outcome.swap_ofDivergence?
  have hok := h.eq_ok_iff fun v w hvw => by
    rw [← v.swap_swap, hvw, w.swap_swap]
  exact ⟨h.exists_error_iff, hok .equivalent, fun d => hok (.diverged d)⟩

end LambdaSharing
