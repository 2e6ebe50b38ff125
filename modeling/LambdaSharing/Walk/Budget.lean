/-!
# Depth budgets

Bodies are trees of any depth, and a body that reaches itself has no end. A
walk therefore counts the nodes it is inside of: it takes a level from its
`Budget` when it enters a node and gives it back when it leaves, and a level
beyond the limit is refused as `DepthExceeded` instead of being entered.

A budget outlives the walk: the same one serves the next walk, so what
matters of a walk, besides its answer, is that it gives back every level it
took.
-/

namespace LambdaSharing

/-- A walk would have gone deeper than its limit. -/
structure DepthExceeded where
  /-- The limit. -/
  limit : Nat
deriving DecidableEq

/-- The refusal as it is reported. -/
def DepthExceeded.message (e : DepthExceeded) : String :=
  "tree nesting exceeds the depth limit of " ++ toString e.limit

/-- How deep a walk is and how deep it may get. -/
structure Budget where
  /-- The levels taken and not given back. -/
  depth : Nat
  /-- The most levels that may be taken at a time. -/
  limit : Nat
deriving DecidableEq

namespace Budget

/-- A budget of which nothing is taken. -/
def new (limit : Nat) : Budget := ⟨0, limit⟩

/-- Take one level. -/
def enter (b : Budget) : Except DepthExceeded Budget :=
  if b.depth < b.limit then .ok { b with depth := b.depth + 1 }
  else .error ⟨b.limit⟩

/-- Give one level back. -/
def leave (b : Budget) : Budget := { b with depth := b.depth - 1 }

/-- Give back `n` levels. -/
def leaveMany (b : Budget) : Nat → Budget
  | 0 => b
  | n + 1 => b.leave.leaveMany n

/-- The levels that may still be taken. -/
def remaining (b : Budget) : Nat := b.limit - b.depth

/-- Take levels one after the other, when `taken` were taken before. The
answer is the depth reached, unless a level was refused, and the budget is
the one after giving back all levels, those taken before included. -/
def descend (b : Budget) (taken : Nat) : Nat → Except DepthExceeded Nat × Budget
  | 0 => (.ok b.depth, b.leaveMany taken)
  | n + 1 =>
    match b.enter with
    | .error e => (.error e, b.leaveMany taken)
    | .ok deeper => deeper.descend (taken + 1) n

/-- Walk down a path of `levels` nodes and back up. The answer is the depth
at the far end. -/
def walkPath (b : Budget) (levels : Nat) : Except DepthExceeded Nat × Budget :=
  b.descend 0 levels

@[simp] theorem leave_limit (b : Budget) : b.leave.limit = b.limit := rfl

@[simp] theorem leaveMany_depth (b : Budget) (n : Nat) :
    (b.leaveMany n).depth = b.depth - n := by
  induction n generalizing b with
  | zero => rfl
  | succ n ih => simp only [leaveMany, ih, leave]; omega

@[simp] theorem leaveMany_limit (b : Budget) (n : Nat) :
    (b.leaveMany n).limit = b.limit := by
  induction n generalizing b with
  | zero => rfl
  | succ n ih => simp [leaveMany, ih]

/-- A level is refused exactly when none is left. -/
theorem enter_eq_error_iff {b : Budget} {e : DepthExceeded} :
    b.enter = .error e ↔ b.limit ≤ b.depth ∧ e = ⟨b.limit⟩ := by
  unfold enter
  split
  · simp; omega
  · simp only [Except.error.injEq]
    constructor
    · intro h; exact ⟨by omega, h.symm⟩
    · intro h; exact h.2.symm

/-- Leaving undoes entering. -/
theorem leave_of_enter {b b' : Budget} (h : b.enter = .ok b') : b'.leave = b := by
  unfold enter at h
  split at h
  · cases h; rfl
  · cases h

/-- Entering takes one of the remaining levels. -/
theorem remaining_of_enter {b b' : Budget} (h : b.enter = .ok b') :
    b.remaining = b'.remaining + 1 := by
  unfold enter at h
  split at h
  · cases h; simp only [remaining]; omega
  · cases h

/-- With no level left, entering is refused. -/
theorem enter_of_remaining_eq_zero {b : Budget} (h : b.remaining = 0) :
    b.enter = .error ⟨b.limit⟩ := by
  simp only [remaining] at h
  exact enter_eq_error_iff.2 ⟨by omega, rfl⟩

/-- With a level left, entering takes it. -/
theorem enter_of_remaining_eq_succ {b : Budget} {n : Nat} (h : b.remaining = n + 1) :
    ∃ b', b.enter = .ok b' ∧ b'.remaining = n ∧ b'.limit = b.limit := by
  simp only [remaining] at h
  refine ⟨{ b with depth := b.depth + 1 }, ?_, ?_, rfl⟩
  · simp only [enter]
    rw [if_pos (by omega)]
  · simp only [remaining]
    omega

end Budget

end LambdaSharing
