import LambdaSharing.Comparison.Comparer
import LambdaSharing.Fingerprint.Hasher
import LambdaSharing.Options.Basic
import LambdaSharing.Sharing.Plan
import Std.Data.ExtTreeSet.Basic

/-!
# Contracts on groups of lambdas

Whoever tests the sharing of lambdas marks in the source which lambdas must
be shared and which must not: groups of lambdas that are all the same, and
families of groups that differ from each other. This module holds comparison,
fingerprint and plan against such marks and lists every violation.

* Lambdas of one equal group must be equivalent, whichever comes first, and
  have one fingerprint.
* Lambdas of different groups of a family must neither be equivalent nor have
  one fingerprint. Equal fingerprints of different lambdas do no harm, but
  cost comparisons.
* A plan must fold every later lambda of an equal group into the group's
  first lambda, and generate exactly the methods of the lambdas it does not
  fold.
-/

namespace LambdaSharing

/-- A pair of lambdas that breaks a contract on groups. -/
inductive GroupViolation where
  /-- Lambdas of one equal group diverge. -/
  | expectedEqual (left right : LambdaId) (divergence : Divergence)
  /-- Equivalent lambdas have different fingerprints. -/
  | hashDisagreement (left right : LambdaId)
  /-- Lambdas of different groups are equivalent. -/
  | expectedDistinct (left right : LambdaId)
  /-- Lambdas of different groups have one fingerprint. -/
  | hashCollision (left right : LambdaId)
deriving DecidableEq

namespace GroupViolation

/-- The name of the violation's kind. -/
def kindName : GroupViolation → String
  | expectedEqual .. => "ExpectedEqual"
  | hashDisagreement .. => "HashDisagreement"
  | expectedDistinct .. => "ExpectedDistinct"
  | hashCollision .. => "HashCollision"

/-- The two lambdas. -/
def pair : GroupViolation → LambdaId × LambdaId
  | expectedEqual l r _ | hashDisagreement l r | expectedDistinct l r
  | hashCollision l r => (l, r)

end GroupViolation

/-- What is wrong with a plan. -/
inductive PlanViolation where
  /-- A later lambda of a group is not folded. -/
  | notDeduplicated (lambda expected : LambdaId)
  /-- A later lambda of a group is folded into another lambda. -/
  | wrongCanonical (lambda expected actual : LambdaId)
  /-- The methods differ from those of the lambdas that are not folded. -/
  | methodMismatch (expected actual : List Method)
deriving DecidableEq

/-! ## Groups -/

/-- What lambdas are held against contracts with: walkers, which serve all
comparisons and all fingerprints, and what was found with them. -/
structure GroupChecker where
  comparer : Comparer
  hasher : Hasher
  /-- The fingerprints that were needed so far. -/
  hashes : Std.ExtTreeMap LambdaId UInt64 := ∅
  /-- The violations met so far. -/
  violations : Array GroupViolation := #[]

namespace GroupChecker

/-- A checker that has checked nothing. -/
def new (o : Options) : GroupChecker where
  comparer := .new o.policy o.maxDepth
  hasher := .new o.maxDepth

/-- The work of a checker, which ends at the first fault. -/
abbrev Work := StateT GroupChecker (Except Fault)

/-- List a violation. -/
def report (violation : GroupViolation) : Work Unit :=
  modify fun c => { c with violations := c.violations.push violation }

/-- Compare two lambdas. -/
def compareLambdas (a : Arena) (l r : LambdaId) : Work Outcome := do
  let c ← get
  let (answer, comparer) := c.comparer.compareLambdas a l r
  set { c with comparer }
  answer

/-- Whether two lambdas are equivalent. -/
def equivalent (a : Arena) (l r : LambdaId) : Work Bool := do
  let c ← get
  let (answer, comparer) := c.comparer.equivalent a l r
  set { c with comparer }
  answer

/-- The fingerprint of a lambda, which is computed once. -/
def lambdaHash (a : Arena) (l : LambdaId) : Work UInt64 := do
  let c ← get
  match c.hashes[l]? with
  | some hash => return hash
  | none =>
    let (answer, hasher) := c.hasher.lambdaHash a l
    let hash ← answer
    set { c with hasher, hashes := c.hashes.insert l hash }
    return hash

/-- The contract on two lambdas of one equal group. -/
def checkEqual (a : Arena) (l r : LambdaId) : Work Unit := do
  match ← compareLambdas a l r with
  | .diverged d => report (.expectedEqual l r d)
  | .equivalent =>
    if (← lambdaHash a l) ≠ (← lambdaHash a r) then report (.hashDisagreement l r)

/-- The contract on two lambdas of different groups. -/
def checkDistinct (a : Arena) (l r : LambdaId) : Work Unit := do
  if ← equivalent a l r then report (.expectedDistinct l r)
  if (← lambdaHash a l) = (← lambdaHash a r) then report (.hashCollision l r)

/-- Check a group, each lambda with those at all other places. -/
def checkWithin (a : Arena) (group : List LambdaId) : Work Unit :=
  group.zipIdx.forM fun (l, i) =>
    group.zipIdx.forM fun (r, j) => if i = j then pure () else checkEqual a l r

/-- Check a family of groups, each group with those behind it. -/
def checkAcross (a : Arena) : List (List LambdaId) → Work Unit
  | [] => pure ()
  | group :: rest => do
    rest.forM fun other => group.forM fun l => other.forM fun r => checkDistinct a l r
    checkAcross a rest

/-- Check each equal group, then the equal groups among themselves, then the
other family. -/
def checkAll (a : Arena) (equal notEqual : List (List LambdaId)) : Work Unit := do
  equal.forM (checkWithin a)
  checkAcross a equal
  checkAcross a notEqual

end GroupChecker

/-- **The violations of the contracts on groups.** -/
def checkGroups (a : Arena) (o : Options) (equal notEqual : List (List LambdaId)) :
    Except Fault (List GroupViolation) := do
  let ((), c) ← (GroupChecker.checkAll a equal notEqual).run (.new o)
  return c.violations.toList

/-! ## Plans -/

/-- What equal groups ask of a plan: every later lambda of a group is folded
into its first one. -/
def expectedDeduplication (equal : List (List LambdaId)) : List (LambdaId × LambdaId) :=
  equal.flatMap fun
    | [] => []
    | first :: later => later.map (·, first)

namespace Plan

/-- The lambda that a lambda is folded into. If the plan says so of several,
the last one counts. -/
def folded? (p : Plan) (l : LambdaId) : Option LambdaId :=
  p.deduplicated.reverse.lookup l

/-- A set of methods as a list. -/
def methodSet (methods : List Method) : List Method :=
  (Std.ExtTreeSet.ofList methods).toList

/-- What is wrong with a lambda that should be folded into another. -/
def checkFolded (p : Plan) (l expected : LambdaId) : List PlanViolation :=
  match p.folded? l with
  | none => [.notDeduplicated l expected]
  | some actual => if actual ≠ expected then [.wrongCanonical l expected actual] else []

/-- What is wrong with the methods of a plan. -/
def checkMethods (p : Plan) : List PlanViolation :=
  let unfolded := p.callSites.toList.filter fun site => (p.folded? site.lambda).isNone
  let expected := methodSet (unfolded.map (·.method))
  let actual := methodSet p.methods
  if expected ≠ actual then [.methodMismatch expected actual] else []

/-- **The violations of the contract on plans.** -/
def check (p : Plan) (equal : List (List LambdaId)) : List PlanViolation :=
  ((expectedDeduplication equal).flatMap fun (l, first) => p.checkFolded l first)
    ++ p.checkMethods

end Plan

end LambdaSharing
