import LambdaSharing.Comparison.Comparer
import LambdaSharing.Fingerprint.Hasher

/-!
# One walker for many calls

A hasher or a comparer carries its budget from one call to the next. Were a
level taken in one call and not given back, then a later call would find one
level less and could refuse a body that is not too deep; and it would be no
call that fails on its own, but one that fails after another one.

What a call leaves behind is the budget of the loop that it runs, and the
loop may stop in any body, inside of any number of nodes, at the end of its
words or steps, with a fault or with a divergence. Wherever it stops, it has
given back the levels of the nodes that it was in, those taken before the call
excepted: the budget is the one at the start less one level for every open
node (`Fingerprint.drive_budget`, `Comparison.drive_budget`). At the start of
a call no node is open. So a walker is after each call what it was before, and
one that has served any calls answers like one that has served none
(`answers_of_used_walkers`).
-/

namespace LambdaSharing

/-! ## What the loops leave behind -/

/-- **The loop over words gives back the levels of all open nodes**, whatever
it comes to. -/
theorem Fingerprint.drive_budget {σ : Type} {absorb : σ → Nat → σ} (a : Arena) (state : σ)
    (pieces : List Piece) (outer : List (List Piece)) (b : Budget) :
    (drive absorb a state pieces outer b).2 = b.leaveMany outer.length := by
  -- `drive_eq` does the current node, and then the loop is in the one around it
  induction outer generalizing state pieces b with
  | nil =>
    rw [drive_eq]
    cases pieceWords a b.limit b.remaining pieces <;> rfl
  | cons rest outer ih =>
    rw [drive_eq]
    cases pieceWords a b.limit b.remaining pieces with
    | error fault => rfl
    | ok words => exact ih (words.foldl absorb state) rest b.leave

/-- **The loop over pairs gives back the levels of all open pairs**, whatever
it comes to. -/
theorem Comparison.drive_budget (a : Arena) (steps : List Step) (outer : List Frame)
    (b : Budget) : (drive a steps outer b).2 = b.leaveMany outer.length := by
  induction outer generalizing steps b with
  | nil =>
    rw [drive_eq]
    rcases stepsDivergence a b.limit b.remaining steps with fault | _ | divergence <;> rfl
  | cons frame outer ih =>
    rw [drive_eq]
    rcases stepsDivergence a b.limit b.remaining steps with fault | _ | divergence
    · rfl
    · exact ih frame.rest b.leave
    · rfl

/-! ## Calls -/

section Calls

variable {σ ρ α : Type}

/-- A call that leaves everything as it was, whatever it answers. -/
def Restores (call : StateM σ α) : Prop :=
  ∀ s, (call.run s).2 = s

/-- Such calls are answered one after another as if each was the first. -/
theorem Restores.run_mapM {call : ρ → StateM σ α} (h : ∀ q, Restores (call q)) (qs : List ρ)
    (s : σ) : (qs.mapM call).run s = (qs.map fun q => ((call q).run s).1, s) := by
  induction qs with
  | nil => rfl
  | cons q qs ih =>
    have hq : (call q).run s = (((call q).run s).1, s) := Prod.ext rfl (h q s)
    rw [List.mapM_cons, StateT.run_bind, hq]
    show (((qs.mapM call).run s).1.cons ((call q).run s).1, ((qs.mapM call).run s).2) = _
    rw [ih]
    rfl

end Calls

/-- What a hasher may be asked for. -/
inductive Hasher.Request where
  | lambda (l : LambdaId)
  | body (l : LambdaId)
  | signature (l : LambdaId)

/-- Answer a request with a fingerprint. -/
def Hasher.answer (a : Arena) : Hasher.Request → StateM Hasher (Except Fault UInt64)
  | .lambda l => fun hasher => hasher.lambdaHash a l
  | .body l => fun hasher => hasher.bodyHash a l
  | .signature l => fun hasher => hasher.signatureHash a l

/-- What a comparer may be asked about two lambdas. -/
inductive Comparer.Request where
  /-- Where they diverge. -/
  | divergence (left right : LambdaId)
  /-- Whether they are equivalent. -/
  | equivalence (left right : LambdaId)

/-- Answer a request about two lambdas. -/
def Comparer.answer (a : Arena) :
    Comparer.Request → StateM Comparer (Except Fault Outcome ⊕ Except Fault Bool)
  | .divergence left right => fun comparer =>
    let (outcome, comparer) := comparer.compareLambdas a left right
    (.inl outcome, comparer)
  | .equivalence left right => fun comparer =>
    let (verdict, comparer) := comparer.equivalent a left right
    (.inr verdict, comparer)

/-- A fingerprint of pieces begins outside of all nodes, and ends there. -/
theorem Hasher.hashPieces_snd (hasher : Hasher) (a : Arena) (pieces : List Fingerprint.Piece) :
    (hasher.hashPieces a pieces).2 = hasher := by
  show Hasher.mk (Fingerprint.drive Fingerprint.mix a 0 pieces [] hasher.budget).2 = hasher
  rw [Fingerprint.drive_budget]
  rfl

/-- **A hasher is left as it was.** -/
theorem Hasher.restores_answer (a : Arena) (q : Hasher.Request) : Restores (answer a q) := by
  intro hasher
  cases q with
  | lambda l =>
    show (hasher.lambdaHash a l).2 = hasher
    unfold lambdaHash
    cases a.scope l with
    | error fault => rfl
    | ok s => exact hasher.hashPieces_snd a _
  | body l =>
    show (hasher.bodyHash a l).2 = hasher
    unfold bodyHash
    cases a.scope l with
    | error fault => rfl
    | ok s => exact hasher.hashPieces_snd a _
  | signature l =>
    show (hasher.signatureHash a l).2 = hasher
    unfold signatureHash
    cases a.scope l <;> rfl

/-- A comparison begins outside of all pairs, and ends there. -/
theorem Comparer.compareLambdas_snd (comparer : Comparer) (a : Arena) (left right : LambdaId) :
    (comparer.compareLambdas a left right).2 = comparer := by
  unfold compareLambdas
  cases a.scope left with
  | error fault => rfl
  | ok ls =>
    cases a.scope right with
    | error fault => rfl
    | ok rs =>
      show { comparer with budget := (Comparison.drive a _ [] comparer.budget).2 } = comparer
      rw [Comparison.drive_budget]
      rfl

/-- **A comparer is left as it was.** -/
theorem Comparer.restores_answer (a : Arena) (q : Comparer.Request) : Restores (answer a q) := by
  intro comparer
  cases q with
  | divergence left right => exact comparer.compareLambdas_snd a left right
  | equivalence left right => exact comparer.compareLambdas_snd a left right

/-- **A walker answers every call like a new one.** Whatever a hasher was
asked before, and whatever came of it, it answers the next request like a
hasher that was not asked anything; the same goes for comparers. For no call
changes a walker, be there levels taken in it or not. -/
theorem answers_of_used_walkers (a : Arena) (policy : CapturePolicy) (limit : Nat) :
    (∀ requests : List Hasher.Request,
      (requests.mapM (Hasher.answer a)).run (.new limit) =
        (requests.map fun q => ((Hasher.answer a q).run (.new limit)).1, .new limit)) ∧
    (∀ requests : List Comparer.Request,
      (requests.mapM (Comparer.answer a)).run (.new policy limit) =
        (requests.map fun q => ((Comparer.answer a q).run (.new policy limit)).1,
          .new policy limit)) ∧
    (∀ (hasher : Hasher) (q : Hasher.Request), ((Hasher.answer a q).run hasher).2 = hasher) ∧
    (∀ (comparer : Comparer) (q : Comparer.Request),
      ((Comparer.answer a q).run comparer).2 = comparer) :=
  ⟨fun requests => Restores.run_mapM (Hasher.restores_answer a) requests _,
    fun requests => Restores.run_mapM (Comparer.restores_answer a) requests _,
    fun hasher q => Hasher.restores_answer a q hasher,
    fun comparer q => Comparer.restores_answer a q comparer⟩

end LambdaSharing
