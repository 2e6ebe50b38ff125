import LambdaSharing.Proofs.Fingerprint.Spelling

/-!
# What a fingerprint can tell apart

Two lambdas, of one arena or of two, hand on the same words exactly when they
say the same. Where their nodes lie, which numbers the nested lambdas have,
whether a node is used in several places, and how deep one was prepared to
go, none of it can be seen in the words. And nothing else is lost in them:
lambdas that say different things but have one fingerprint have different
words, which the mixing takes to one number.
-/

namespace LambdaSharing

open Fingerprint

/-- The words of two readable lambdas are the same exactly when their
contents are. -/
theorem Arena.words_eq_iff_of_read {a b : Arena} {m n : Nat} {l r : LambdaId}
    {c d : LambdaContent} (hc : a.readLambda m l = .ok c) (hd : b.readLambda n r = .ok d) :
    c.words = d.words ↔ c = d := by
  obtain ⟨_, -, -, hl⟩ := hasLambdaContent_of_readLambda hc
  obtain ⟨_, -, -, hr⟩ := hasLambdaContent_of_readLambda hd
  constructor
  · exact LambdaContent.words_inj hl.wellFormed hr.wellFormed
  · exact congrArg LambdaContent.words

/-- **The words of a lambda are a faithful code of its content.** Of any two
lambdas that have a fingerprint, in any two arenas and under any two limits,
the words that are handed on are the same exactly if the contents are. So
equal contents have equal fingerprints, and if different contents do, then
because the mixing takes two sequences of words to one. -/
theorem handedWords_eq_iff_content_eq {a b : Arena} {m n : Nat} {l r : LambdaId}
    {x y : UInt64} (hl : a.lambdaHash m l = .ok x) (hr : b.lambdaHash n r = .ok y) :
    ∃ us vs c d,
      a.handedWords m l = .ok us ∧ b.handedWords n r = .ok vs ∧
      x = ofWords us ∧ y = ofWords vs ∧
      a.HasLambdaContent l c ∧ b.HasLambdaContent r d ∧
      (us = vs ↔ c = d) ∧
      (c = d → x = y) ∧
      (c ≠ d → x = y → us ≠ vs ∧ ofWords us = ofWords vs) := by
  obtain ⟨c, hc, rfl⟩ := Arena.lambdaHash_eq_ok_iff.1 hl
  obtain ⟨d, hd, rfl⟩ := Arena.lambdaHash_eq_ok_iff.1 hr
  have hwords := Arena.words_eq_iff_of_read hc hd
  refine ⟨c.words, d.words, c, d, ?_, ?_, rfl, rfl, Arena.hasLambdaContent_of_readLambda hc,
    Arena.hasLambdaContent_of_readLambda hd, hwords, ?_, ?_⟩
  · rw [Arena.handedWords_eq, hc, map_ok]
  · rw [Arena.handedWords_eq, hd, map_ok]
  · rintro rfl
    rfl
  · intro hne heq
    exact ⟨fun h => hne (hwords.1 h), heq⟩

/-- An arena with the second of the five lambdas alone. -/
def Arena.oneLambda : Arena where
  nodes := #[⟨.var (.capture 0), .int, .none⟩, ⟨.ret (nodeAt 0), .void, .none⟩]
  lambdas := #[capturing 2 1]

/-- The words of the second of the five lambdas are those of the one that is
alone in another arena. -/
theorem handedWords_of_fiveLambdas :
    Arena.fiveLambdas.lambdaHash 2 ⟨1⟩ = .ok (ofWords [12, 0, 1, 0, 18, 8, 1, 1, 1, 0, 0, 0]) ∧
      Arena.oneLambda.lambdaHash 7 ⟨0⟩ = .ok (ofWords [12, 0, 1, 0, 18, 8, 1, 1, 1, 0, 0, 0]) ∧
      ∃ us vs c d,
        Arena.fiveLambdas.handedWords 2 ⟨1⟩ = .ok us ∧
        Arena.oneLambda.handedWords 7 ⟨0⟩ = .ok vs ∧
        Arena.fiveLambdas.HasLambdaContent ⟨1⟩ c ∧ Arena.oneLambda.HasLambdaContent ⟨0⟩ d ∧
        (us = vs ↔ c = d) := by
  have hl : Arena.fiveLambdas.lambdaHash 2 ⟨1⟩ =
      .ok (ofWords [12, 0, 1, 0, 18, 8, 1, 1, 1, 0, 0, 0]) := Arena.lambdaHash_of_words rfl
  have hr : Arena.oneLambda.lambdaHash 7 ⟨0⟩ =
      .ok (ofWords [12, 0, 1, 0, 18, 8, 1, 1, 1, 0, 0, 0]) := Arena.lambdaHash_of_words rfl
  obtain ⟨us, vs, c, d, hus, hvs, -, -, hc, hd, hiff, -, -⟩ :=
    handedWords_eq_iff_content_eq hl hr
  exact ⟨hl, hr, us, vs, c, d, hus, hvs, hc, hd, hiff⟩

end LambdaSharing
