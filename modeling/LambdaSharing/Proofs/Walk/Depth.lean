import LambdaSharing.Proofs.Walk.Simulation

/-!
# What a depth limit can change

A walk that runs out of levels stops with a refusal, and it does so in the
order of the walk: what would have come later, a fault or a divergence, is
never seen. So a limit has a say in which answer is given, and one might fear
that a higher limit gives another one in some cases. It does not, because the
limit is seen nowhere but in the refusals. As long as no level is refused, a
walk with more levels takes the same steps to the same end.

`Deepens x y` says that the answer `x` leaves room for `y` only if it is a
refusal. The two walks go through one arena side by side, the one with more
levels follows the other, and refusals are the faults that excuse it.
-/

namespace LambdaSharing

variable {α : Type}

/-- The answer is that a level was refused. -/
def Refused (x : Except Fault α) : Prop :=
  ∃ l cause, x = .error (.depthExceeded l cause)

/-- The second answer may be given in place of the first when more levels are
left: it is the same, unless the first is a refusal. -/
def Deepens (x y : Except Fault α) : Prop :=
  ¬ Refused x → y = x

/-- An answer that follows another one, if refusals excuse, may be given in
its place. -/
theorem Follows.deepens {x y : Except Fault α}
    (h : Follows (fun e => ∃ l cause, e = .depthExceeded l cause) Eq x y) : Deepens x y := by
  intro hx
  refine h.eq ?_
  rintro _ hrefused ⟨l, cause, rfl⟩
  exact hx ⟨l, cause, hrefused⟩

variable {a : Arena} {limit limit' : Nat}

/-- Under a higher limit, more levels are left. -/
theorem Levels.of_le (hle : limit ≤ limit') :
    Levels (fun e => ∃ l cause, e = .depthExceeded l cause) limit limit limit' limit' :=
  .inr ⟨hle, fun l cause => ⟨l, cause, rfl⟩⟩

/-- Under a higher limit, the fingerprint of a lambda is the same. -/
theorem deepens_lambdaHash (hle : limit ≤ limit') (l : LambdaId) :
    Deepens (a.lambdaHash limit l) (a.lambdaHash limit' l) :=
  (follows_lambdaHash (.refl _ a) (.of_le hle) l).deepens

/-- Under a higher limit, the fingerprint of a body is the same. -/
theorem deepens_bodyHash (hle : limit ≤ limit') (l : LambdaId) :
    Deepens (a.bodyHash limit l) (a.bodyHash limit' l) :=
  (follows_bodyHash (.refl _ a) (.of_le hle) l).deepens

/-- Under a higher limit, a comparison comes to the same. -/
theorem deepens_compareLambdas (hle : limit ≤ limit') (policy : CapturePolicy) (l r : LambdaId) :
    Deepens (a.compareLambdas policy limit l r) (a.compareLambdas policy limit' l r) := by
  have hpairs : ∀ s s' t t', s = s' → t = t' → Pairing.Alike ⟨s, t, policy⟩ ⟨s', t', policy⟩ := by
    rintro s _ t _ rfl rfl
    exact .refl _
  exact (follows_compareLambdas (.refl _ a) (.of_le hle) (fun l => .refl (a.scope l)) hpairs
    l r).deepens

/-- **A higher limit changes refusals only.** Whatever else there was for an
answer, a fingerprint, a verdict, a divergence or another fault, is the
answer under every higher limit. -/
theorem answers_under_higher_limit (a : Arena) (policy : CapturePolicy) (l r : LambdaId)
    (h : limit ≤ limit') :
    (¬ Refused (a.lambdaHash limit l) → a.lambdaHash limit' l = a.lambdaHash limit l) ∧
      (¬ Refused (a.bodyHash limit l) → a.bodyHash limit' l = a.bodyHash limit l) ∧
      (¬ Refused (a.compareLambdas policy limit l r) →
        a.compareLambdas policy limit' l r = a.compareLambdas policy limit l r) :=
  ⟨deepens_lambdaHash h l, deepens_bodyHash h l, deepens_compareLambdas h policy l r⟩

/-- Two levels are enough for the first three of the five lambdas, and more
levels change nothing about them. For the fourth they are not enough. -/
theorem answers_of_fiveLambdas :
    2 ≤ 9 ∧ ¬ Refused (Arena.fiveLambdas.lambdaHash 2 ⟨0⟩) ∧
      Arena.fiveLambdas.lambdaHash 9 ⟨0⟩ = Arena.fiveLambdas.lambdaHash 2 ⟨0⟩ ∧
      ¬ Refused (Arena.fiveLambdas.bodyHash 2 ⟨0⟩) ∧
      Arena.fiveLambdas.bodyHash 9 ⟨0⟩ = Arena.fiveLambdas.bodyHash 2 ⟨0⟩ ∧
      ¬ Refused (Arena.fiveLambdas.compareLambdas .identity 2 ⟨0⟩ ⟨2⟩) ∧
      Arena.fiveLambdas.compareLambdas .identity 9 ⟨0⟩ ⟨2⟩ =
        Arena.fiveLambdas.compareLambdas .identity 2 ⟨0⟩ ⟨2⟩ ∧
      Refused (Arena.fiveLambdas.lambdaHash 2 ⟨3⟩) := by
  obtain ⟨hlambda, hbody, hcompare⟩ := answers_under_higher_limit Arena.fiveLambdas .identity
    ⟨0⟩ ⟨2⟩ (by decide : 2 ≤ 9)
  have h₁ : ¬ Refused (Arena.fiveLambdas.lambdaHash 2 ⟨0⟩) := by
    rw [@Arena.lambdaHash_of_words Arena.fiveLambdas 2 ⟨0⟩ _ rfl]
    rintro ⟨_, _, h⟩
    cases h
  have h₂ : ¬ Refused (Arena.fiveLambdas.bodyHash 2 ⟨0⟩) := by
    rw [Arena.bodyHash_eq]
    rintro ⟨_, _, h⟩
    cases h
  have h₃ : ¬ Refused (Arena.fiveLambdas.compareLambdas .identity 2 ⟨0⟩ ⟨2⟩) := by
    rw [Arena.compareLambdas_eq]
    rintro ⟨_, _, h⟩
    cases h
  refine ⟨by decide, h₁, hlambda h₁, h₂, hbody h₂, h₃, hcompare h₃, ⟨0⟩, ⟨2⟩, ?_⟩
  rw [Arena.lambdaHash_eq]
  rfl

end LambdaSharing
