import LambdaSharing.Comparison.Walk

/-!
# Comparing lambdas

A `Comparer` is a capture policy and a depth budget, and compares one pair of
lambdas after another. `Comparer.compareLambdas_eq` says that it answers with
the first divergence of the two lambdas, or with the fault that looking for
it meets, and is left as it was in either case. So it does not matter which
comparer is asked, and `Arena.compareLambdas` asks a new one.
-/

namespace LambdaSharing

open Comparison

/-- The state of a computation of comparisons between two requests. -/
structure Comparer where
  /-- What is asked of captures. -/
  policy : CapturePolicy
  /-- The levels it may take. -/
  budget : Budget
deriving DecidableEq

namespace Comparer

/-- A comparer that goes down to a given depth. -/
def new (policy : CapturePolicy) (limit : Nat) : Comparer := ⟨policy, .new limit⟩

/-- Compare two lambdas, up to the first divergence. -/
def compareLambdas (c : Comparer) (a : Arena) (left right : LambdaId) :
    Except Fault Outcome × Comparer :=
  match a.scope left with
  | .error e => (.error e, c)
  | .ok ls =>
    match a.scope right with
    | .error e => (.error e, c)
    | .ok rs =>
      let (answer, budget) := drive a (lambdaSteps ⟨ls, rs, c.policy⟩) [] c.budget
      (answer.map Outcome.ofDivergence?, { c with budget })

/-- Whether two lambdas are equivalent. -/
def equivalent (c : Comparer) (a : Arena) (left right : LambdaId) :
    Except Fault Bool × Comparer :=
  let (answer, c) := c.compareLambdas a left right
  (answer.map Outcome.isEquivalent, c)

end Comparer

namespace Arena

/-- Compare two lambdas within a depth limit. -/
def compareLambdas (a : Arena) (policy : CapturePolicy) (limit : Nat)
    (left right : LambdaId) : Except Fault Outcome :=
  ((Comparer.new policy limit).compareLambdas a left right).1

end Arena

/-- A comparer answers with the first divergence and gives back all levels. -/
theorem Comparer.compareLambdas_eq (c : Comparer) (a : Arena) (left right : LambdaId) :
    c.compareLambdas a left right =
      ((do
        let ls ← a.scope left
        let rs ← a.scope right
        stepsDivergence a c.budget.limit c.budget.remaining
          (lambdaSteps ⟨ls, rs, c.policy⟩)).map Outcome.ofDivergence?, c) := by
  rw [compareLambdas]
  cases a.scope left with
  | error e => rfl
  | ok ls =>
    cases a.scope right with
    | error e => rfl
    | ok rs =>
      simp only [drive_eq, bind, Except.bind]
      rcases stepsDivergence a c.budget.limit c.budget.remaining
        (lambdaSteps ⟨ls, rs, c.policy⟩) with e | _ | d <;>
        simp [Except.map, resume, encloseFrames, Budget.leaveMany]

/-- It does not matter which lambdas a comparer has compared before. -/
theorem Comparer.compareLambdas_new (a : Arena) (policy : CapturePolicy) (limit : Nat)
    (left right : LambdaId) :
    (new policy limit).compareLambdas a left right =
      (a.compareLambdas policy limit left right, new policy limit) :=
  Prod.ext rfl (by rw [compareLambdas_eq])

/-- **A comparison answers with the first divergence.** -/
theorem Arena.compareLambdas_eq (a : Arena) (policy : CapturePolicy) (limit : Nat)
    (left right : LambdaId) :
    a.compareLambdas policy limit left right =
      (lambdaDivergence a policy limit left right).map Outcome.ofDivergence? := by
  rw [compareLambdas, Comparer.compareLambdas_eq]
  rfl

end LambdaSharing
