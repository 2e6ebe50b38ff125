import LambdaSharing.Proofs.Comparison.Equivalence
import LambdaSharing.Proofs.Fingerprint.Spelling

/-!
# Comparisons and fingerprints

A search for equivalent lambdas looks at those with one fingerprint only. It
may do so if no two equivalent lambdas have different fingerprints, which
looks like a matter of keeping two walks in step: whatever goes into the one
has to be compared by the other. Here it is read off from the contents. A
comparison that finds no divergence has read one content on both sides, under
the same limit as a fingerprint would, and a fingerprint depends on nothing
but the content (`fingerprints_eq_of_equivalent`).

The converse is not true, since different contents may be mixed to one
fingerprint. For that the comparison is there, and it errs on neither side
(`equivalent_iff_content_eq`).
-/

namespace LambdaSharing

open Fingerprint

variable {a : Arena} {policy : CapturePolicy} {limit : Nat} {l r : LambdaId}

/-- **Equivalent lambdas have equal fingerprints**, of the whole lambda, of
the body and of the signature, and under the limit of the comparison all of
them exist. -/
theorem fingerprints_eq_of_equivalent
    (h : a.compareLambdas policy limit l r = .ok .equivalent) :
    (∃ hash, ((Hasher.new limit).lambdaHash a l).1 = .ok hash ∧
      ((Hasher.new limit).lambdaHash a r).1 = .ok hash) ∧
    (∃ hash, ((Hasher.new limit).bodyHash a l).1 = .ok hash ∧
      ((Hasher.new limit).bodyHash a r).1 = .ok hash) ∧
    (∃ hash, ((Hasher.new limit).signatureHash a l).1 = .ok hash ∧
      ((Hasher.new limit).signatureHash a r).1 = .ok hash) := by
  obtain ⟨c, hl, hr, -⟩ := Arena.equivalent_iff.1 h
  refine ⟨⟨ofWords c.words, ?_, ?_⟩, ⟨ofWords c.body.words, ?_, ?_⟩,
    ofWords (signatureWords c.signature), ?_, ?_⟩
  · exact Arena.lambdaHash_eq_ok_iff.2 ⟨c, hl, rfl⟩
  · exact Arena.lambdaHash_eq_ok_iff.2 ⟨c, hr, rfl⟩
  · show a.bodyHash limit l = _
    rw [Arena.bodyHash_eq_of_read, hl, map_ok]
  · show a.bodyHash limit r = _
    rw [Arena.bodyHash_eq_of_read, hr, map_ok]
  · exact Arena.signatureHash_of_read hl _
  · exact Arena.signatureHash_of_read hr _

/-- Two closures of different lambdas are equivalent, and have equal
fingerprints, if the lambdas they create say the same. -/
theorem fingerprints_eq_of_fiveLambdas :
    Arena.fiveLambdas.compareLambdas .identity 3 ⟨3⟩ ⟨4⟩ = .ok .equivalent ∧
      ∃ hash, Arena.fiveLambdas.lambdaHash 3 ⟨3⟩ = .ok hash ∧
        Arena.fiveLambdas.lambdaHash 3 ⟨4⟩ = .ok hash := by
  have h : Arena.fiveLambdas.compareLambdas .identity 3 ⟨3⟩ ⟨4⟩ = .ok .equivalent := by
    rw [Arena.compareLambdas_eq]
    rfl
  exact ⟨h, (fingerprints_eq_of_equivalent h).1⟩

/-- Equivalent lambdas have one fingerprint. -/
theorem Arena.Equivalent.lambdaHash_eq (h : a.Equivalent policy limit l r) :
    a.lambdaHash limit l = a.lambdaHash limit r := by
  obtain ⟨c, hl, hr, -⟩ := Arena.equivalent_iff.1 h
  rw [Arena.lambdaHash_eq_of_read, Arena.lambdaHash_eq_of_read, hl, hr]

/-- Lambdas that have a fingerprint are compared without a fault. -/
theorem Arena.compareLambdas_of_hash (policy : CapturePolicy) {x y : UInt64}
    (hl : a.lambdaHash limit l = .ok x) (hr : a.lambdaHash limit r = .ok y) :
    ∃ outcome, a.compareLambdas policy limit l r = .ok outcome := by
  obtain ⟨c, hc, -⟩ := lambdaHash_eq_ok_iff.1 hl
  obtain ⟨d, hd, -⟩ := lambdaHash_eq_ok_iff.1 hr
  obtain ⟨outcome, houtcome, -⟩ := compareLambdas_of_read policy hc hd
  exact ⟨outcome, houtcome⟩

/-- **Compared by place, lambdas are equivalent exactly if they say the
same.** Lambdas that have a fingerprint, that is. Positions of nodes, numbers
of nested lambdas and the sharing of nodes play no part. -/
theorem equivalent_iff_content_eq {x y : UInt64} (hl : a.lambdaHash limit l = .ok x)
    (hr : a.lambdaHash limit r = .ok y) :
    ∃ c d, a.HasLambdaContent l c ∧ a.HasLambdaContent r d ∧
      (a.compareLambdas .positional limit l r = .ok .equivalent ↔ c = d) := by
  obtain ⟨c, hc, -⟩ := Arena.lambdaHash_eq_ok_iff.1 hl
  obtain ⟨d, hd, -⟩ := Arena.lambdaHash_eq_ok_iff.1 hr
  refine ⟨c, d, Arena.hasLambdaContent_of_readLambda hc, Arena.hasLambdaContent_of_readLambda hd,
    ?_⟩
  obtain ⟨outcome, houtcome, hiff⟩ := Arena.compareLambdas_of_read .positional hc hd
  rw [houtcome, Except.ok.injEq, hiff, and_iff_left (Arena.sameVariables_positional c.body)]

/-- The first two of the five lambdas say the same, though they capture
different variables, and the third says something else. -/
theorem content_eq_of_fiveLambdas :
    (∃ x, Arena.fiveLambdas.lambdaHash 2 ⟨0⟩ = .ok x) ∧
      (∃ y, Arena.fiveLambdas.lambdaHash 2 ⟨1⟩ = .ok y) ∧
      (∃ z, Arena.fiveLambdas.lambdaHash 2 ⟨2⟩ = .ok z) ∧
      ∃ c d, Arena.fiveLambdas.HasLambdaContent ⟨0⟩ c ∧
        Arena.fiveLambdas.HasLambdaContent ⟨1⟩ c ∧
        Arena.fiveLambdas.HasLambdaContent ⟨2⟩ d ∧ c ≠ d := by
  have h₀ := @Arena.lambdaHash_of_words Arena.fiveLambdas 2 ⟨0⟩ _ rfl
  have h₁ := @Arena.lambdaHash_of_words Arena.fiveLambdas 2 ⟨1⟩ _ rfl
  have h₂ := @Arena.lambdaHash_of_words Arena.fiveLambdas 2 ⟨2⟩ _ rfl
  obtain ⟨c, c', hc, hc', hsame⟩ := equivalent_iff_content_eq h₀ h₁
  obtain ⟨c'', d, hc'', hd, hother⟩ := equivalent_iff_content_eq h₀ h₂
  obtain rfl := hc.unique hc''
  have h₀₁ : c = c' := by
    rw [← hsame, Arena.compareLambdas_eq]
    rfl
  have h₀₂ : c ≠ d := by
    rw [ne_eq, ← hother, Arena.compareLambdas_eq]
    intro h
    cases h
  exact ⟨⟨_, h₀⟩, ⟨_, h₁⟩, ⟨_, h₂⟩, c, d, hc, h₀₁ ▸ hc', hd, h₀₂⟩

end LambdaSharing
