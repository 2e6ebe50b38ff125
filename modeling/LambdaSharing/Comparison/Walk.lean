import LambdaSharing.Comparison.Steps

/-!
# The walk that compares two bodies

`pairDivergence` says where two bodies differ first; this module finds it
without nesting one call inside another for every level of the bodies. As in
the walk for fingerprints, the steps that are still to be done are kept in
lists: those of the current pair of nodes, and for every pair around it, as a
`Frame`, the steps left there. `drive` is one loop over these lists.

A divergence ends the loop at once. A frame remembers the closures at whose
lambdas the walk went inside, so that a divergence found there is reported at
them. Whatever ends the loop, the levels of all open pairs are given back;
`drive_eq` says that the answer is that of `pairDivergence` and the budget
the one the walk began with.
-/

namespace LambdaSharing.Comparison

/-- A pair of nodes that the walk is inside of. -/
structure Frame where
  /-- The closures whose lambdas have this pair as bodies, if any. -/
  sites : List ClosureSite
  /-- The steps left in the pair around this one. -/
  rest : List Step

/-- A divergence found inside the open pairs, as it is reported outside of
them. -/
def encloseFrames (outer : List Frame) (d : Divergence) : Divergence :=
  outer.foldl (fun d frame => encloseAll frame.sites d) d

/-! ## How much there is to do -/

/-- The turns of the loop for a list of steps, given those for pairs. -/
def turnsWith (below : Pairing → NodeId → NodeId → Nat) : List Step → Nat
  | [] => 0
  | .report _ :: rest => 1 + turnsWith below rest
  | .pair p left right _ :: rest => 1 + below p left right + turnsWith below rest

/-- The turns below a pair that is being entered, when `n` levels are left. -/
def pairTurns (a : Arena) : Nat → Pairing → NodeId → NodeId → Nat
  | 0, _, _, _ => 0
  | n + 1, p, left, right =>
    match pairSteps a p left right with
    | .error _ => 0
    | .ok steps => 1 + turnsWith (pairTurns a n) steps

/-- The turns for the steps left in the pairs around the current one, when
`n` levels are left in the innermost of them. -/
def frameTurns (a : Arena) : Nat → List Frame → Nat
  | _, [] => 0
  | n, frame :: outer => 1 + turnsWith (pairTurns a n) frame.rest + frameTurns a (n + 1) outer

theorem turnsWith_mono {below below' : Pairing → NodeId → NodeId → Nat}
    (h : ∀ p l r, below p l r ≤ below' p l r) (steps : List Step) :
    turnsWith below steps ≤ turnsWith below' steps := by
  induction steps with
  | nil => simp [turnsWith]
  | cons x rest ih =>
    cases x with
    | report d => simp only [turnsWith]; omega
    | pair p left right sites =>
      have := h p left right
      simp only [turnsWith]
      omega

theorem pairTurns_le_succ (a : Arena) (n : Nat) (p : Pairing) (left right : NodeId) :
    pairTurns a n p left right ≤ pairTurns a (n + 1) p left right := by
  induction n generalizing p left right with
  | zero => simp [pairTurns]
  | succ n ih =>
    rw [pairTurns, pairTurns]
    split
    · exact Nat.le_refl _
    · exact Nat.add_le_add_left (turnsWith_mono ih _) 1

theorem pairTurns_mono (a : Arena) {n m : Nat} (h : n ≤ m) (p : Pairing)
    (left right : NodeId) : pairTurns a n p left right ≤ pairTurns a m p left right := by
  induction h with
  | refl => exact Nat.le_refl _
  | step _ ih => exact Nat.le_trans ih (pairTurns_le_succ a _ p left right)

theorem frameTurns_mono (a : Arena) {n m : Nat} (h : n ≤ m) (outer : List Frame) :
    frameTurns a n outer ≤ frameTurns a m outer := by
  induction outer generalizing n m with
  | nil => simp [frameTurns]
  | cons frame outer ih =>
    have := turnsWith_mono (pairTurns_mono a h) frame.rest
    have := ih (Nat.add_le_add_right h 1)
    simp only [frameTurns]
    omega

/-! ## The loop -/

/-- Do the steps, and then the steps left in the pairs around, up to the
first divergence. -/
def drive (a : Arena) (steps : List Step) (outer : List Frame) (b : Budget) :
    Except Fault (Option Divergence) × Budget :=
  match steps, outer with
  | [], [] => (.ok none, b)
  | [], frame :: outer => drive a frame.rest outer b.leave
  | .report d :: _, outer => (.ok (some (encloseFrames outer d)), b.leaveMany outer.length)
  | .pair p left right sites :: rest, outer =>
    match _entered : b.enter with
    | .error e => (.error (.depthExceeded p.left.id e), b.leaveMany outer.length)
    | .ok deeper =>
      match found : pairSteps a p left right with
      | .error e => (.error e, deeper.leaveMany (outer.length + 1))
      | .ok inner => drive a inner (⟨sites, rest⟩ :: outer) deeper
termination_by turnsWith (pairTurns a b.remaining) steps + frameTurns a (b.remaining + 1) outer
decreasing_by
  · have hr : b.leave.remaining ≤ b.remaining + 1 := by
      simp only [Budget.remaining, Budget.leave]; omega
    have := turnsWith_mono (pairTurns_mono a hr) frame.rest
    have := frameTurns_mono a (Nat.add_le_add_right hr 1) outer
    simp only [turnsWith, frameTurns]
    omega
  · simp only [turnsWith, frameTurns, Budget.remaining_of_enter _entered, pairTurns, found]
    omega

/-- Where finished steps lead: to the end, or back to the pair around the
current one, whose level is given back. -/
def resume (a : Arena) (outer : List Frame) (b : Budget) :
    Except Fault (Option Divergence) × Budget :=
  match outer with
  | [] => (.ok none, b)
  | frame :: outer => drive a frame.rest outer b.leave

theorem drive_nil (a : Arena) (outer : List Frame) (b : Budget) :
    drive a [] outer b = resume a outer b := by
  cases outer <;> rw [drive, resume]

theorem drive_report (a : Arena) (d : Divergence) (rest : List Step) (outer : List Frame)
    (b : Budget) :
    drive a (.report d :: rest) outer b =
      (.ok (some (encloseFrames outer d)), b.leaveMany outer.length) := by
  rw [drive]

theorem drive_pair_of_enter_error {a : Arena} {p : Pairing} {left right : NodeId}
    {sites : List ClosureSite} {rest : List Step} {outer : List Frame} {b : Budget}
    {e : DepthExceeded} (h : b.enter = .error e) :
    drive a (.pair p left right sites :: rest) outer b =
      (.error (.depthExceeded p.left.id e), b.leaveMany outer.length) := by
  rw [drive]
  split <;> simp_all

theorem drive_pair_of_enter {a : Arena} {p : Pairing} {left right : NodeId}
    {sites : List ClosureSite} {rest : List Step} {outer : List Frame} {b deeper : Budget}
    (h : b.enter = .ok deeper) :
    drive a (.pair p left right sites :: rest) outer b =
      match pairSteps a p left right with
      | .error e => (.error e, b.leaveMany outer.length)
      | .ok inner => drive a inner (⟨sites, rest⟩ :: outer) deeper := by
  rw [drive]
  split
  · simp_all
  · rename_i d hd
    obtain rfl : deeper = d := by simp_all
    split <;> simp_all [Budget.leaveMany, Budget.leave_of_enter h]

/-- **The loop finds the first divergence.** Started inside a pair, it comes
back to the pairs around if the current steps come to nothing, or it stops
with the fault or the divergence that they come to, with the levels of all
open pairs given back. -/
theorem drive_eq (a : Arena) (steps : List Step) (outer : List Frame) (b : Budget) :
    drive a steps outer b =
      match stepsDivergence a b.limit b.remaining steps with
      | .error e => (.error e, b.leaveMany outer.length)
      | .ok (some d) => (.ok (some (encloseFrames outer d)), b.leaveMany outer.length)
      | .ok none => resume a outer b := by
  generalize hn : b.remaining = n
  induction n generalizing steps outer b with
  | zero =>
    cases steps with
    | nil => simp [drive_nil, stepsDivergence]
    | cons x rest =>
      cases x with
      | report d => simp [drive_report, stepsDivergence]
      | pair p left right sites =>
        rw [drive_pair_of_enter_error (Budget.enter_of_remaining_eq_zero hn)]
        simp [stepsDivergence, firstWith_pair]
  | succ n ihn =>
    obtain ⟨deeper, he, hr, hl⟩ := Budget.enter_of_remaining_eq_succ hn
    induction steps with
    | nil => simp [drive_nil, stepsDivergence]
    | cons x rest ih =>
      cases x with
      | report d => simp [drive_report, stepsDivergence]
      | pair p left right sites =>
        rw [drive_pair_of_enter he]
        cases hp : pairSteps a p left right with
        | error e =>
          simp [stepsDivergence, firstWith_pair, pairDivergence_of_steps_error hp]
        | ok inner =>
          have hd : pairDivergence a b.limit (n + 1) p left right =
              firstWith (pairDivergence a b.limit n) inner := pairDivergence_of_steps hp
          simp only [ihn _ _ _ hr, hl]
          rcases hi : firstWith (pairDivergence a b.limit n) inner with e | _ | d
          · simp [stepsDivergence, firstWith_pair, hd, hi, Budget.leaveMany,
              Budget.leave_of_enter he]
          · simp only [stepsDivergence, hi, resume, Budget.leave_of_enter he, ih,
              firstWith_pair, hd]
          · simp [stepsDivergence, firstWith_pair, hd, hi, Budget.leaveMany,
              Budget.leave_of_enter he, encloseFrames]

end LambdaSharing.Comparison
