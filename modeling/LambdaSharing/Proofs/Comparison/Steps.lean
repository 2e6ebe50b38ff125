import LambdaSharing.Comparison.Steps
import LambdaSharing.Proofs.Walk.Sequence

/-!
# Questions that steps decide

A list of steps comes to a divergence, to nothing, or to a fault. Read as the
answer to a question, nothing means yes and a divergence no. `Decides` says
that steps answer a given question, without a fault. The lists from which the
steps of a pair of nodes are put together each decide a part of what is asked
of the pair, and `Decides.append` puts the parts together: later steps only
have to decide theirs if the earlier ones found nothing, which is all that
can be expected of them, as they may rely on what was compared before.
-/

namespace LambdaSharing.Comparison

variable {below : Pairing → NodeId → NodeId → Except Fault (Option Divergence)}

/-! ## What steps come to -/

/-- A single pair of children comes to what it comes to below. -/
theorem firstWith_child (p : Pairing) (left right : NodeId) :
    firstWith below [.pair p left right []] = below p left right := by
  rw [firstWith_pair]
  rcases below p left right with e | _ | d <;> rfl

/-- Steps come to nothing if all parts of them do. -/
theorem firstWith_append_eq_none_iff {xs ys : List Step} :
    firstWith below (xs ++ ys) = .ok none ↔
      firstWith below xs = .ok none ∧ firstWith below ys = .ok none := by
  rw [firstWith_append]
  rcases firstWith below xs with e | _ | d <;> simp

/-- Steps come to a divergence if it is the first of one part and all parts
before come to nothing. -/
theorem firstWith_append_eq_some_iff {xs ys : List Step} {d : Divergence} :
    firstWith below (xs ++ ys) = .ok (some d) ↔
      firstWith below xs = .ok (some d) ∨
        firstWith below xs = .ok none ∧ firstWith below ys = .ok (some d) := by
  rw [firstWith_append]
  rcases firstWith below xs with e | _ | d' <;> simp

/-- A requirement comes to nothing if it is met. -/
theorem firstWith_require_eq_none_iff {left right : NodeId} {ok : Bool}
    {reason : DivergenceReason} :
    firstWith below (require left right ok reason) = .ok none ↔ ok = true := by
  cases ok <;> simp [require]

/-- A requirement that is not met is reported. -/
theorem firstWith_require_eq_some_iff {left right : NodeId} {ok : Bool}
    {reason : DivergenceReason} {d : Divergence} :
    firstWith below (require left right ok reason) = .ok (some d) ↔
      ok = false ∧ d = .mk (some left) (some right) reason := by
  cases ok <;> simp [require, eq_comm]

/-- Steps inside a pair of closures come to the same divergence, reported at
the closures. -/
theorem firstWith_inside (site : ClosureSite) (steps : List Step) :
    firstWith below (steps.map (Step.inside site)) =
      (firstWith below steps).map (Option.map site.enclose) := by
  induction steps with
  | nil => rfl
  | cons step steps ih =>
    cases step with
    | report d => rfl
    | pair p left right sites =>
      rw [List.map_cons, Step.inside, firstWith_pair, firstWith_pair, ih]
      rcases below p left right with e | _ | d <;> rfl

/-- Steps inside a pair of closures come to nothing if the steps do. -/
theorem firstWith_inside_eq_none_iff {site : ClosureSite} {steps : List Step} :
    firstWith below (steps.map (Step.inside site)) = .ok none ↔
      firstWith below steps = .ok none := by
  rw [firstWith_inside]
  rcases firstWith below steps with e | _ | d <;> simp

/-- Steps inside a pair of closures come to a divergence if the steps do. -/
theorem firstWith_inside_eq_some_iff {site : ClosureSite} {steps : List Step} {d : Divergence} :
    firstWith below (steps.map (Step.inside site)) = .ok (some d) ↔
      ∃ inner, firstWith below steps = .ok (some inner) ∧ d = site.enclose inner := by
  rw [firstWith_inside]
  rcases firstWith below steps with e | _ | inner <;> simp [eq_comm]

/-! ## Deciding -/

/-- The steps end without a fault, and come to nothing exactly if `P`. -/
def Decides (below : Pairing → NodeId → NodeId → Except Fault (Option Divergence))
    (steps : List Step) (P : Prop) : Prop :=
  ∃ found, firstWith below steps = .ok found ∧ (found = none ↔ P)

namespace Decides

variable {steps xs ys : List Step} {P Q : Prop}

/-- The same question may be put in another way. -/
theorem congr (h : Decides below steps P) (hPQ : P ↔ Q) : Decides below steps Q := by
  obtain ⟨found, hfound, hP⟩ := h
  exact ⟨found, hfound, hP.trans hPQ⟩

/-- No steps decide what is certain. -/
theorem nil (hP : P) : Decides below [] P :=
  ⟨none, rfl, iff_of_true rfl hP⟩

/-- A report decides what is out of the question. -/
theorem report {d : Divergence} {rest : List Step} (hP : ¬ P) :
    Decides below (.report d :: rest) P :=
  ⟨some d, rfl, iff_of_false (Option.some_ne_none d) hP⟩

/-- A requirement decides whether it is met. -/
theorem require {left right : NodeId} {ok : Bool} {reason : DivergenceReason} :
    Decides below (require left right ok reason) (ok = true) := by
  cases ok with
  | true => exact nil rfl
  | false => exact report Bool.false_ne_true

/-- Steps after others decide the rest of a question. -/
theorem append (hx : Decides below xs P) (hy : P → Decides below ys Q) :
    Decides below (xs ++ ys) (P ∧ Q) := by
  obtain ⟨found, hfound, hP⟩ := hx
  rw [Decides, firstWith_append, hfound]
  cases found with
  | some d =>
    refine ⟨some d, rfl, iff_of_false (Option.some_ne_none d) ?_⟩
    rintro ⟨p, -⟩
    exact absurd (hP.2 p) (Option.some_ne_none d)
  | none =>
    have p : P := hP.1 rfl
    obtain ⟨found, hfound, hQ⟩ := hy p
    exact ⟨found, hfound, hQ.trans (and_iff_right p).symm⟩

/-- Steps inside a pair of closures decide the same. -/
theorem inside {site : ClosureSite} (h : Decides below steps P) :
    Decides below (steps.map (Step.inside site)) P := by
  obtain ⟨found, hfound, hP⟩ := h
  refine ⟨found.map site.enclose, ?_, ?_⟩
  · rw [firstWith_inside, hfound, map_ok]
  · rw [Option.map_eq_none_iff, hP]

end Decides

end LambdaSharing.Comparison
