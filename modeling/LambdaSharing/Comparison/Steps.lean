import LambdaSharing.Comparison.Binding
import LambdaSharing.Comparison.Divergence

/-!
# Comparing two bodies

Two lambdas are equivalent when their signatures agree and their bodies agree
node by node: same shape, same payload, same type, as many children, and
every pair of children again. Variables agree when their slots are the same,
and two closures agree when the lambdas they create are equivalent and the
expressions passed for the captures agree.

The capture policy is for the outermost pair of lambdas only. What a nested
lambda captures is declared inside the lambdas around it, and the expressions
passed for it are compared anyway; so nested lambdas are compared by place,
whatever the policy.

`pairSteps` says what there is to do for one pair of nodes, as a list of
`Step`s in the order in which they count: the first one that reports a
divergence decides. Reading the two nodes and checking their payloads happens
here, before any pair of children is looked at. `pairDivergence` then runs
through the steps by recursion on the levels that are left below the depth
limit.
-/

namespace LambdaSharing.Comparison

/-- Two closures, and the lambdas they create. -/
structure ClosureSite where
  left : NodeId
  right : NodeId
  leftLambda : LambdaId
  rightLambda : LambdaId
deriving DecidableEq

/-- A divergence of the two lambdas, reported at the closures. -/
def ClosureSite.enclose (site : ClosureSite) (inner : Divergence) : Divergence :=
  .mk (some site.left) (some site.right) (.nested site.leftLambda site.rightLambda inner)

/-- A divergence inside several pairs of closures, the outermost first. -/
def encloseAll (sites : List ClosureSite) (inner : Divergence) : Divergence :=
  sites.foldr ClosureSite.enclose inner

/-- A part of the work for a pair of nodes. -/
inductive Step where
  /-- The bodies differ here. -/
  | report (divergence : Divergence)
  /-- Compare two nodes. They are the bodies of the lambdas created at
  `sites`, or children of the current pair if there are no sites. -/
  | pair (pairing : Pairing) (left right : NodeId) (sites : List ClosureSite)

/-- The step as part of the comparison of two closures. -/
def Step.inside (site : ClosureSite) : Step → Step
  | report d => report (site.enclose d)
  | pair p left right sites => pair p left right (site :: sites)

/-- Compare two children: they must both be present or both be absent. -/
def childSteps (p : Pairing) : Child → Child → List Step
  | none, none => []
  | some l, some r => [.pair p l r []]
  | l, r => [.report (.mk l r .presence)]

/-- Compare two lambdas: first their signatures, then their bodies. -/
def lambdaSteps (p : Pairing) : List Step :=
  let l := p.left.lambda
  let r := p.right.lambda
  match l.signature.mismatch? r.signature with
  | some part => [.report (.mk l.body r.body (.signature part))]
  | none => childSteps p l.body r.body

/-- Require something of two nodes. -/
def require (left right : NodeId) (ok : Bool) (otherwise : DivergenceReason) : List Step :=
  if ok then [] else [.report (.mk (some left) (some right) otherwise)]

/-- Compare two payloads of nodes of one shape, which are checked first where
they can be wrong. -/
def payloadSteps (a : Arena) (p : Pairing) (left right : NodeId) :
    Payload → Payload → Except Fault (List Step)
  | .literal l, .literal r => .ok (require left right (l == r) .literal)
  | .slot l, .slot r => do
    p.left.checkSlot left l
    p.right.checkSlot right r
    return require left right (p.binding.slotsMatch l r) (.slot l r)
  | .symbol l, .symbol r => .ok (require left right (l == r) .symbol)
  | .nested l, .nested r => do
    let ls ← a.scope l
    let rs ← a.scope r
    return (lambdaSteps ⟨ls, rs, .positional⟩).map (Step.inside ⟨left, right, l, r⟩)
  | .target l, .target r => .ok (require left right (l == r) (.type l r))
  | .unary l, .unary r => .ok (require left right (l == r) .operator)
  | .binary l, .binary r => .ok (require left right (l == r) .operator)
  | .assign l, .assign r => .ok (require left right (l == r) .operator)
  | .declaration l t, .declaration r u => do
    p.left.checkLocal left l
    p.right.checkLocal right r
    return require left right (l == r && t == u) .declaration
  | _, _ => .ok []

/-- Compare two lists of children of equal length. -/
def childrenSteps (p : Pairing) (left right : List Child) : List Step :=
  (left.zip right).flatMap fun (l, r) => childSteps p l r

/-- Compare two nodes. -/
def pairSteps (a : Arena) (p : Pairing) (left right : NodeId) : Except Fault (List Step) := do
  let l ← p.left.node a left
  let r ← p.right.node a right
  let lefts ← p.left.children a left l.kind
  let rights ← p.right.children a right r.kind
  if l.kind.tag ≠ r.kind.tag then
    return require left right false (.kind l.kind.tag r.kind.tag)
  let payload ← payloadSteps a p left right l.kind.payload r.kind.payload
  return payload
    ++ require left right (l.type == r.type) (.type l.type r.type)
    ++ require left right (lefts.length == rights.length)
      (.childCount lefts.length rights.length)
    ++ childrenSteps p lefts rights

/-- The first divergence that a list of steps comes to, given those of pairs
of nodes. -/
def firstWith (below : Pairing → NodeId → NodeId → Except Fault (Option Divergence)) :
    List Step → Except Fault (Option Divergence)
  | [] => .ok none
  | .report d :: _ => .ok (some d)
  | .pair p left right sites :: rest => do
    match ← below p left right with
    | some d => return some (encloseAll sites d)
    | none => firstWith below rest

/-- **The first divergence of two nodes**, when `n` levels are left for them
and what is below them. The limit is only needed to report that none is
left, which is held against the left body. -/
def pairDivergence (a : Arena) (limit : Nat) :
    Nat → Pairing → NodeId → NodeId → Except Fault (Option Divergence)
  | 0, p, _, _ => .error (.depthExceeded p.left.id ⟨limit⟩)
  | n + 1, p, left, right => do
    firstWith (pairDivergence a limit n) (← pairSteps a p left right)

/-- The first divergence of a list of steps when `n` levels are left. -/
def stepsDivergence (a : Arena) (limit n : Nat) (steps : List Step) :
    Except Fault (Option Divergence) :=
  firstWith (pairDivergence a limit n) steps

/-- **The first divergence of two lambdas** under a depth limit. -/
def lambdaDivergence (a : Arena) (policy : CapturePolicy) (limit : Nat) (left right : LambdaId) :
    Except Fault (Option Divergence) := do
  let ls ← a.scope left
  let rs ← a.scope right
  stepsDivergence a limit limit (lambdaSteps ⟨ls, rs, policy⟩)

/-! ## Equations -/

variable {below : Pairing → NodeId → NodeId → Except Fault (Option Divergence)}

@[simp] theorem firstWith_nil : firstWith below [] = .ok none := rfl

@[simp] theorem firstWith_report (d : Divergence) (rest : List Step) :
    firstWith below (.report d :: rest) = .ok (some d) := rfl

theorem firstWith_pair (p : Pairing) (left right : NodeId) (sites : List ClosureSite)
    (rest : List Step) :
    firstWith below (.pair p left right sites :: rest) =
      match below p left right with
      | .error e => .error e
      | .ok (some d) => .ok (some (encloseAll sites d))
      | .ok none => firstWith below rest := by
  rw [firstWith]
  rcases below p left right with e | _ | d <;> rfl

/-- Steps after others count only if those come to nothing. -/
theorem firstWith_append (xs ys : List Step) :
    firstWith below (xs ++ ys) =
      match firstWith below xs with
      | .ok none => firstWith below ys
      | decided => decided := by
  induction xs with
  | nil => rfl
  | cons x xs ih =>
    cases x with
    | report d => rfl
    | pair p left right sites =>
      rw [List.cons_append, firstWith_pair, firstWith_pair]
      rcases below p left right with e | _ | d
      · rfl
      · exact ih
      · rfl

variable {a : Arena} {limit n : Nat} {p : Pairing} {left right : NodeId}

@[simp] theorem pairDivergence_zero :
    pairDivergence a limit 0 p left right = .error (.depthExceeded p.left.id ⟨limit⟩) := rfl

theorem pairDivergence_of_steps_error {e : Fault} (h : pairSteps a p left right = .error e) :
    pairDivergence a limit (n + 1) p left right = .error e := by
  rw [pairDivergence, h]
  rfl

theorem pairDivergence_of_steps {steps : List Step} (h : pairSteps a p left right = .ok steps) :
    pairDivergence a limit (n + 1) p left right =
      firstWith (pairDivergence a limit n) steps := by
  rw [pairDivergence, h]
  rfl

end LambdaSharing.Comparison
