import LambdaSharing.Comparison.Comparer
import LambdaSharing.Proofs.Comparison.Exact

/-!
# Equivalent lambdas

Lambdas are equivalent, under a capture policy and a depth limit, if a
comparison finds no divergence. What this means can be said without any
comparison (`Arena.equivalent_iff`): both can be read and say the same, and
under the policy that asks for the same variables, both capture the same
variable wherever the common body refers to a capture.

From this form everything is plain that is hard to see from the walk. The
walk reports faults on the left first and counts levels for both sides at
once; still it does not matter which lambda is on which side, and the
lambdas that can be read fall into classes.
-/

namespace LambdaSharing

open Comparison

/-- No divergence is equivalence. -/
theorem Outcome.ofDivergence?_eq_equivalent_iff {found : Option Divergence} :
    ofDivergence? found = .equivalent ↔ found = none := by
  cases found <;> simp [ofDivergence?]

namespace Arena

variable {a : Arena} {policy : CapturePolicy} {limit : Nat} {l m r : LambdaId}

/-! ## The same captured variables -/

/-- The variable that a lambda captures in a place. -/
def capturedVar? (a : Arena) (l : LambdaId) (i : UInt32) : Option SymbolId :=
  (a.lambda? l).bind fun lambda => lambda.capturedVar? i

/-- If the policy asks for it, two lambdas capture the same variables in the
places that a body refers to. -/
def SameVariables (a : Arena) (policy : CapturePolicy) (l r : LambdaId) (body : Content) :
    Prop :=
  policy = .identity → ∀ i, body.Uses i → a.capturedVar? l i = a.capturedVar? r i

/-- Two scopes agree on a body if their lambdas capture the same variables. -/
theorem agree_iff_sameVariables {ls rs : Scope} {body : Content} (hl : a.scope l = .ok ls)
    (hr : a.scope r = .ok rs) :
    Pairing.Agree ⟨ls, rs, policy⟩ body ↔ a.SameVariables policy l r body := by
  obtain ⟨left, hleft, rfl⟩ := scope_eq_ok_iff.1 hl
  obtain ⟨right, hright, rfl⟩ := scope_eq_ok_iff.1 hr
  unfold SameVariables capturedVar?
  rw [hleft, hright]
  constructor
  · intro hagree hpolicy i hi
    exact hagree i hi hpolicy
  · intro hsame i hi hpolicy
    exact hsame hpolicy i hi

/-- Nothing is asked of variables that are compared by place. -/
theorem sameVariables_positional (body : Content) : a.SameVariables .positional l r body := by
  intro hpolicy
  cases hpolicy

namespace SameVariables

variable {body : Content}

theorem refl (l : LambdaId) (body : Content) : a.SameVariables policy l l body :=
  fun _ _ _ => rfl

theorem symm (h : a.SameVariables policy l r body) : a.SameVariables policy r l body :=
  fun hpolicy i hi => (h hpolicy i hi).symm

theorem trans (h : a.SameVariables policy l m body) (h' : a.SameVariables policy m r body) :
    a.SameVariables policy l r body :=
  fun hpolicy i hi => (h hpolicy i hi).trans (h' hpolicy i hi)

end SameVariables

/-! ## What equivalence means -/

/-- A comparison finds no divergence. -/
def Equivalent (a : Arena) (policy : CapturePolicy) (limit : Nat) (l r : LambdaId) : Prop :=
  a.compareLambdas policy limit l r = .ok .equivalent

/-- **Comparing lambdas that can be read never stops with a fault**, and says
whether they say the same. -/
theorem compareLambdas_of_read (policy : CapturePolicy) {c d : LambdaContent}
    (hl : a.readLambda limit l = .ok c) (hr : a.readLambda limit r = .ok d) :
    ∃ outcome, a.compareLambdas policy limit l r = .ok outcome ∧
      (outcome = .equivalent ↔ c = d ∧ a.SameVariables policy l r c.body) := by
  obtain ⟨ls, hls, hleft, hc⟩ := readLambda_eq_ok_iff.1 hl
  obtain ⟨rs, hrs, hright, hd⟩ := readLambda_eq_ok_iff.1 hr
  obtain ⟨found, hfound, hiff⟩ :=
    (exact_pairDivergence a limit limit).decides_lambda (p := ⟨ls, rs, policy⟩) hc hd
  refine ⟨.ofDivergence? found, ?_, ?_⟩
  · rw [compareLambdas_eq, lambdaDivergence, hls, ok_bind, hrs, ok_bind, stepsDivergence, hfound,
      map_ok]
  · rw [Outcome.ofDivergence?_eq_equivalent_iff, hiff, hleft, hright,
      agree_iff_sameVariables hls hrs, ← and_assoc]
    cases c
    cases d
    rw [LambdaContent.mk.injEq]

/-- Equivalent lambdas can be read. -/
theorem Equivalent.read (h : a.Equivalent policy limit l r) :
    (∃ c, a.readLambda limit l = .ok c) ∧ ∃ d, a.readLambda limit r = .ok d := by
  rw [Equivalent, compareLambdas_eq, map_eq_ok_iff] at h
  obtain ⟨found, hfound, hequivalent⟩ := h
  obtain rfl := Outcome.ofDivergence?_eq_equivalent_iff.1 hequivalent
  simp only [lambdaDivergence, bind_eq_ok_iff] at hfound
  obtain ⟨ls, hls, rs, hrs, hnone⟩ := hfound
  obtain ⟨⟨c, hc⟩, d, hd⟩ := (exact_pairDivergence a limit limit).read_lambda hnone
  exact ⟨⟨⟨_, c⟩, readLambda_eq_ok_iff.2 ⟨ls, hls, rfl, hc⟩⟩,
    ⟨_, d⟩, readLambda_eq_ok_iff.2 ⟨rs, hrs, rfl, hd⟩⟩

/-- **Lambdas are equivalent if both can be read and say the same**, and
capture the same variables where the policy asks for it. -/
theorem equivalent_iff :
    a.Equivalent policy limit l r ↔
      ∃ c, a.readLambda limit l = .ok c ∧ a.readLambda limit r = .ok c ∧
        a.SameVariables policy l r c.body := by
  constructor
  · intro h
    obtain ⟨⟨c, hc⟩, d, hd⟩ := h.read
    obtain ⟨outcome, houtcome, hiff⟩ := compareLambdas_of_read policy hc hd
    obtain ⟨rfl, hsame⟩ := hiff.1 (Except.ok.inj (houtcome.symm.trans h))
    exact ⟨c, hc, hd, hsame⟩
  · rintro ⟨c, hl, hr, hsame⟩
    obtain ⟨outcome, houtcome, hiff⟩ := compareLambdas_of_read policy hl hr
    rw [Equivalent, houtcome, hiff.2 ⟨rfl, hsame⟩]

/-! ## Classes -/

/-- A lambda that can be read is equivalent to itself. -/
theorem Equivalent.refl {c : LambdaContent} (h : a.readLambda limit l = .ok c) :
    a.Equivalent policy limit l l :=
  equivalent_iff.2 ⟨c, h, h, .refl l c.body⟩

theorem Equivalent.symm (h : a.Equivalent policy limit l r) :
    a.Equivalent policy limit r l := by
  obtain ⟨c, hl, hr, hsame⟩ := equivalent_iff.1 h
  exact equivalent_iff.2 ⟨c, hr, hl, hsame.symm⟩

theorem Equivalent.trans (h : a.Equivalent policy limit l m)
    (h' : a.Equivalent policy limit m r) : a.Equivalent policy limit l r := by
  obtain ⟨c, hl, hm, hsame⟩ := equivalent_iff.1 h
  obtain ⟨d, hm', hr, hsame'⟩ := equivalent_iff.1 h'
  obtain rfl := Except.ok.inj (hm.symm.trans hm')
  exact equivalent_iff.2 ⟨c, hl, hr, hsame.trans hsame'⟩

end Arena

end LambdaSharing
