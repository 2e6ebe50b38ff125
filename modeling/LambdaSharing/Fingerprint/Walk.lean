import LambdaSharing.Fingerprint.Pieces

/-!
# The walk that computes a fingerprint

`nodeWords` says what the words of a body are; this module hands them on as
they come, without ever holding the whole sequence. Bodies may be a hundred
thousand levels deep, so the walk keeps the pieces that are still to be done
in a list of its own: one list for the node it is in, and behind it, for
every node around that one, the pieces left there. `drive` is one loop over
these lists. What takes the words in is a parameter of the loop, a state and
a step `absorb`: a fingerprint is what comes of mixing them.

A `Hasher` is a depth budget that is used for one walk after another. `drive`
takes a level when it enters a node and gives it back when the node's pieces
are done; when it stops at a fault it gives back the levels of all nodes it
was in. `drive_eq` says what this comes to: the state has taken in the words
that `nodeWords` lists, one after the other, the fault is the one it reports,
and the budget is the one the walk began with.
-/

namespace LambdaSharing.Fingerprint

/-! ## How much there is to do

The loop ends because the depth is limited. What is left to do is counted in
steps of the loop: a word is one step, and a node is one step to enter it,
one for each of its pieces, and one to leave it. -/

/-- The steps for a list of pieces, given those for nodes. -/
def stepsWith (below : Scope → NodeId → Nat) : List Piece → Nat
  | [] => 0
  | .word _ :: rest => 1 + stepsWith below rest
  | .node s id :: rest => 1 + below s id + stepsWith below rest

/-- The steps below a node that is being entered, when `n` levels are left. -/
def nodeSteps (a : Arena) : Nat → Scope → NodeId → Nat
  | 0, _, _ => 0
  | n + 1, s, id =>
    match nodePieces a s id with
    | .error _ => 0
    | .ok pieces => 1 + stepsWith (nodeSteps a n) pieces

/-- The steps for the pieces left in the nodes around the current one, when
`n` levels are left in the innermost of them. -/
def outerSteps (a : Arena) : Nat → List (List Piece) → Nat
  | _, [] => 0
  | n, rest :: outer => 1 + stepsWith (nodeSteps a n) rest + outerSteps a (n + 1) outer

theorem stepsWith_mono {below below' : Scope → NodeId → Nat}
    (h : ∀ s id, below s id ≤ below' s id) (pieces : List Piece) :
    stepsWith below pieces ≤ stepsWith below' pieces := by
  induction pieces with
  | nil => simp [stepsWith]
  | cons p rest ih =>
    rcases p with w | ⟨s, id⟩ <;> simp only [stepsWith]
    · omega
    · have := h s id
      omega

theorem nodeSteps_le_succ (a : Arena) (n : Nat) (s : Scope) (id : NodeId) :
    nodeSteps a n s id ≤ nodeSteps a (n + 1) s id := by
  induction n generalizing s id with
  | zero => simp [nodeSteps]
  | succ n ih =>
    rw [nodeSteps, nodeSteps]
    split
    · exact Nat.le_refl _
    · exact Nat.add_le_add_left (stepsWith_mono ih _) 1

theorem nodeSteps_mono (a : Arena) {n m : Nat} (h : n ≤ m) (s : Scope) (id : NodeId) :
    nodeSteps a n s id ≤ nodeSteps a m s id := by
  induction h with
  | refl => exact Nat.le_refl _
  | step _ ih => exact Nat.le_trans ih (nodeSteps_le_succ a _ s id)

theorem outerSteps_mono (a : Arena) {n m : Nat} (h : n ≤ m) (outer : List (List Piece)) :
    outerSteps a n outer ≤ outerSteps a m outer := by
  induction outer generalizing n m with
  | nil => simp [outerSteps]
  | cons rest outer ih =>
    have := stepsWith_mono (nodeSteps_mono a h) rest
    have := ih (Nat.add_le_add_right h 1)
    simp only [outerSteps]
    omega

/-! ## The loop -/

variable {σ : Type}

/-- Let the state absorb the words of `pieces`, and then of the pieces left
in the nodes around. -/
@[specialize]
def drive (absorb : σ → Nat → σ) (a : Arena) (state : σ) (pieces : List Piece)
    (outer : List (List Piece)) (b : Budget) : Except Fault σ × Budget :=
  match pieces, outer with
  | [], [] => (.ok state, b)
  | [], rest :: outer => drive absorb a state rest outer b.leave
  | .word w :: rest, outer => drive absorb a (absorb state w) rest outer b
  | .node s id :: rest, outer =>
    match _entered : b.enter with
    | .error e => (.error (.depthExceeded s.id e), b.leaveMany outer.length)
    | .ok deeper =>
      match found : nodePieces a s id with
      | .error e => (.error e, deeper.leaveMany (outer.length + 1))
      | .ok inner => drive absorb a state inner (rest :: outer) deeper
termination_by stepsWith (nodeSteps a b.remaining) pieces + outerSteps a (b.remaining + 1) outer
decreasing_by
  · have hr : b.leave.remaining ≤ b.remaining + 1 := by
      simp only [Budget.remaining, Budget.leave]; omega
    have := stepsWith_mono (nodeSteps_mono a hr) rest
    have := outerSteps_mono a (Nat.add_le_add_right hr 1) outer
    simp only [stepsWith, outerSteps]
    omega
  · simp only [stepsWith]; omega
  · simp only [stepsWith, outerSteps, Budget.remaining_of_enter _entered, nodeSteps, found]
    omega

/-- Where a finished list of words leads: to the end, or back to the node
around the current one, whose level is given back. -/
def resume (absorb : σ → Nat → σ) (a : Arena) (state : σ) (outer : List (List Piece))
    (b : Budget) : Except Fault σ × Budget :=
  match outer with
  | [] => (.ok state, b)
  | rest :: outer => drive absorb a state rest outer b.leave

variable {absorb : σ → Nat → σ}

theorem drive_nil (a : Arena) (state : σ) (outer : List (List Piece)) (b : Budget) :
    drive absorb a state [] outer b = resume absorb a state outer b := by
  cases outer <;> rw [drive, resume]

theorem drive_word (a : Arena) (state : σ) (w : Nat) (rest : List Piece)
    (outer : List (List Piece)) (b : Budget) :
    drive absorb a state (.word w :: rest) outer b =
      drive absorb a (absorb state w) rest outer b := by
  rw [drive]

theorem drive_node_of_enter_error {a : Arena} {state : σ} {s : Scope} {id : NodeId}
    {rest : List Piece} {outer : List (List Piece)} {b : Budget} {e : DepthExceeded}
    (h : b.enter = .error e) :
    drive absorb a state (.node s id :: rest) outer b =
      (.error (.depthExceeded s.id e), b.leaveMany outer.length) := by
  rw [drive]
  split <;> simp_all

theorem drive_node_of_enter {a : Arena} {state : σ} {s : Scope} {id : NodeId}
    {rest : List Piece} {outer : List (List Piece)} {b deeper : Budget}
    (h : b.enter = .ok deeper) :
    drive absorb a state (.node s id :: rest) outer b =
      match nodePieces a s id with
      | .error e => (.error e, b.leaveMany outer.length)
      | .ok inner => drive absorb a state inner (rest :: outer) deeper := by
  rw [drive]
  split
  · simp_all
  · rename_i d hd
    obtain rfl : deeper = d := by simp_all
    split <;> simp_all [Budget.leaveMany, Budget.leave_of_enter h]

/-- **The loop hands on the listed words.** Started inside a node, it comes
back to the nodes around with the words of the current pieces taken in and
the budget unchanged, or it stops at the fault that listing the words meets,
with the levels of all open nodes given back. -/
theorem drive_eq (a : Arena) (state : σ) (pieces : List Piece)
    (outer : List (List Piece)) (b : Budget) :
    drive absorb a state pieces outer b =
      match pieceWords a b.limit b.remaining pieces with
      | .error e => (.error e, b.leaveMany outer.length)
      | .ok words => resume absorb a (words.foldl absorb state) outer b := by
  generalize hn : b.remaining = n
  induction n generalizing state pieces outer b with
  | zero =>
    induction pieces generalizing state with
    | nil => simp [drive_nil, pieceWords]
    | cons p rest ih =>
      rcases p with w | ⟨s, id⟩
      · rw [drive_word, ih]
        cases h : wordsWith (nodeWords a b.limit 0) rest <;>
          simp [pieceWords, wordsWith, h, bind, Except.bind, pure, Except.pure]
      · rw [drive_node_of_enter_error (Budget.enter_of_remaining_eq_zero hn)]
        rfl
  | succ n ihn =>
    obtain ⟨deeper, he, hr, hl⟩ := Budget.enter_of_remaining_eq_succ hn
    induction pieces generalizing state with
    | nil => simp [drive_nil, pieceWords]
    | cons p rest ih =>
      rcases p with w | ⟨s, id⟩
      · rw [drive_word, ih]
        cases h : wordsWith (nodeWords a b.limit (n + 1)) rest <;>
          simp [pieceWords, wordsWith, h, bind, Except.bind, pure, Except.pure]
      · rw [drive_node_of_enter he]
        cases hp : nodePieces a s id with
        | error e =>
          simp [pieceWords, wordsWith, nodeWords_of_pieces_error hp, bind, Except.bind]
        | ok inner =>
          have hw : nodeWords a b.limit (n + 1) s id =
              wordsWith (nodeWords a b.limit n) inner := nodeWords_of_pieces hp
          simp only [ihn _ _ _ _ hr, hl]
          cases hi : wordsWith (nodeWords a b.limit n) inner with
          | error e =>
            simp [pieceWords, wordsWith, hw, hi, bind, Except.bind, Budget.leaveMany,
              Budget.leave_of_enter he]
          | ok words =>
            simp only [pieceWords, hi, resume, Budget.leave_of_enter he, ih]
            cases h : wordsWith (nodeWords a b.limit (n + 1)) rest <;>
              simp [wordsWith, hw, hi, h, bind, Except.bind, pure, Except.pure]

end LambdaSharing.Fingerprint
