import LambdaSharing.Proofs.Sharing.Requests

/-!
# What a registry accepts

To find the class of a lambda, a registry compares it with lambdas that were
accepted before, and a comparison is a second walk, over two bodies at once
and with a budget of its own, which may stop with faults of its own. So it
looks as if it could depend on what came before whether a lambda is accepted.
It does not (`Registry.submit_eq_error_iff`): until the plan is handed out, a
lambda is refused if and only if it has no fingerprint, and what is answered
is the fault that the computation of the fingerprint met. The search of a
bucket never adds a fault, because all that a comparison can stumble upon
would have kept one of the two lambdas from having a fingerprint.

So what a run accepts can be said without the run: the lambdas with a
fingerprint that are submitted before the plan is asked for
(`Registry.mem_acceptances_run_iff`).
-/

namespace LambdaSharing

namespace Registry

variable {a : Arena} {r : Registry a} {l : LambdaId}

/-- A lambda without a fingerprint fails its examination by the same fault. -/
theorem examine_of_lambdaHash_error {fault : Fault}
    (h : a.lambdaHash r.options.maxDepth l = .error fault) : r.examine l = .error fault := by
  unfold examine
  cases hs : a.scope l with
  | error fault' =>
    rw [Arena.lambdaHash, Hasher.lambdaHash, hs] at h
    rw [error_bind, Except.error.inj h]
  | ok s => rw [ok_bind, h, error_bind]

namespace Coherent

/-- **An examination fails if and only if there is no fingerprint**, and by the
same fault. -/
theorem examine_eq_error_iff (h : r.Coherent) {fault : Fault} :
    r.examine l = .error fault ↔ a.lambdaHash r.options.maxDepth l = .error fault := by
  refine ⟨fun hexamine => ?_, examine_of_lambdaHash_error⟩
  cases hhash : a.lambdaHash r.options.maxDepth l with
  | error fault' =>
    rw [examine_of_lambdaHash_error hhash] at hexamine
    rw [Except.error.inj hexamine]
  | ok hash =>
    obtain ⟨e, he⟩ := h.examine_isOk hhash
    rw [hexamine] at he
    cases he

/-- An accepted lambda has a fingerprint. -/
theorem lambdaHash_of_accepted (h : r.Coherent) {x : Reference} (hx : r.canonical? l = some x) :
    ∃ hash, a.lambdaHash r.options.maxDepth l = .ok hash := by
  obtain ⟨-, hash, hleader⟩ := Plan.canonical?_eq_some_iff.1 hx
  exact ⟨hash, (h.alike_canonical hx).lambdaHash_eq.trans (h.hashed hleader)⟩

/-- Until the plan is handed out, a submission is refused if and only if there
is no fingerprint. -/
theorem submit_refused_iff (h : r.Coherent) (hphase : r.phase ≠ .finalized)
    {refusal : Refusal} :
    (r.submit l).1 = .error refusal ↔
      ∃ fault, a.lambdaHash r.options.maxDepth l = .error fault ∧ refusal = .faulty fault := by
  rw [Registry.submit, if_neg hphase]
  cases hx : r.canonical? l with
  | some x =>
    obtain ⟨hash, hhash⟩ := h.lambdaHash_of_accepted hx
    simp [hhash]
  | none =>
    cases hexamine : r.examine l with
    | error fault => simp [h.examine_eq_error_iff.1 hexamine, eq_comm]
    | ok e => simp [(examine_eq_ok_iff.1 hexamine).2.1]

end Coherent

/-- **Whether a lambda is accepted does not depend on what came before.** Until
the plan is handed out, a submission is refused if and only if the lambda has
no fingerprint, and for the same reason. The search of a bucket comes to an end
for every lambda that has a fingerprint, and so does, under any policy and
limit, a comparison of any two lambdas that have one. -/
theorem submit_eq_error_iff {o : Options} (h : Reachable o r) (hphase : r.phase ≠ .finalized)
    (l : LambdaId) :
    (∀ refusal, (r.submit l).1 = .error refusal ↔
      ∃ fault, a.lambdaHash o.maxDepth l = .error fault ∧ refusal = .faulty fault) ∧
    (∀ hash, a.lambdaHash o.maxDepth l = .ok hash →
      ∃ s, r.searchAmong l (r.bucket hash) = .ok s) ∧
    ∀ policy limit m n x y, a.lambdaHash limit m = .ok x → a.lambdaHash limit n = .ok y →
      ∃ outcome, a.compareLambdas policy limit m n = .ok outcome := by
  have hcoherent := h.coherent
  rw [← h.options_eq]
  refine ⟨fun refusal => hcoherent.submit_refused_iff hphase, ?_, ?_⟩
  · intro hash hhash
    exact hcoherent.search_isOk hhash (r.bucket hash)
  · intro policy limit m n x y hm hn
    exact Arena.compareLambdas_of_hash policy hm hn

/-- After two of the five lambdas, which have different fingerprints, a third
one is accepted under a limit of two levels, and one that is too deep is
refused, as well as one that does not exist. -/
theorem submit_eq_error_of_fiveLambdas :
    let r := (((new Arena.fiveLambdas ⟨true, .identity, 2, {}⟩).submit ⟨0⟩).2.submit ⟨2⟩).2
    Reachable ⟨true, .identity, 2, {}⟩ r ∧ r.phase ≠ .finalized ∧
      (∀ refusal, (r.submit ⟨1⟩).1 ≠ .error refusal) ∧
      (r.submit ⟨9⟩).1 = .error (.faulty (.unknownLambda ⟨9⟩)) ∧
      (r.submit ⟨3⟩).1 = .error (.faulty (.depthExceeded ⟨0⟩ ⟨2⟩)) ∧
      ∃ outcome, Arena.fiveLambdas.compareLambdas .identity 2 ⟨1⟩ ⟨0⟩ = .ok outcome := by
  intro r
  have hr : Reachable ⟨true, .identity, 2, {}⟩ r := (Reachable.new.submit ⟨0⟩).submit ⟨2⟩
  have hphase : r.phase ≠ .finalized := phase_submit (phase_submit Phase.noConfusion)
  have h₀ := @Arena.lambdaHash_of_words Arena.fiveLambdas 2 ⟨0⟩ _ rfl
  have h₁ := @Arena.lambdaHash_of_words Arena.fiveLambdas 2 ⟨1⟩ _ rfl
  have h₃ : Arena.fiveLambdas.lambdaHash 2 ⟨3⟩ = .error (.depthExceeded ⟨0⟩ ⟨2⟩) := by
    rw [Arena.lambdaHash_eq]
    rfl
  have h₉ : Arena.fiveLambdas.lambdaHash 2 ⟨9⟩ = .error (.unknownLambda ⟨9⟩) := rfl
  refine ⟨hr, hphase, ?_, ?_, ?_, ?_⟩
  · intro refusal hrefused
    obtain ⟨fault, hfault, -⟩ := ((submit_eq_error_iff hr hphase ⟨1⟩).1 refusal).1 hrefused
    rw [h₁] at hfault
    cases hfault
  · exact ((submit_eq_error_iff hr hphase ⟨9⟩).1 _).2 ⟨_, h₉, rfl⟩
  · exact ((submit_eq_error_iff hr hphase ⟨3⟩).1 _).2 ⟨_, h₃, rfl⟩
  · exact (submit_eq_error_iff hr hphase ⟨1⟩).2.2 _ _ _ _ _ _ h₁ h₀

/-! ## Accepted in a run -/

/-- A submission accepts its lambda if that has a fingerprint. -/
theorem Coherent.accepted?_eq_some_iff {m : LambdaId} (h : r.Coherent)
    (hphase : r.phase ≠ .finalized) :
    (Request.submit m).accepted? (r.answer (.submit m)).1 = some l ↔
      l = m ∧ ∃ hash, a.lambdaHash r.options.maxDepth l = .ok hash := by
  show (Request.submit m).accepted? (.ofReference (r.submit m).1) = some l ↔ _
  cases hhash : a.lambdaHash r.options.maxDepth m with
  | error fault =>
    rw [(h.submit_refused_iff hphase).2 ⟨fault, hhash, rfl⟩]
    constructor
    · intro hnone
      cases hnone
    · rintro ⟨rfl, hash, hhash'⟩
      rw [hhash] at hhash'
      cases hhash'
  | ok hash =>
    obtain ⟨x, hx⟩ := h.submit_isOk hphase hhash
    rw [hx]
    constructor
    · intro hsome
      obtain rfl := Option.some.inj hsome
      exact ⟨rfl, hash, hhash⟩
    · rintro ⟨rfl, -⟩
      rfl

/-- Once the plan was handed out, a request is refused and changes nothing. -/
theorem answer_of_finalized (hphase : r.phase = .finalized) (q : Request) :
    r.answer q = (q.tooLate, r) := by
  cases q with
  | submit l =>
    rw [answer, Registry.submit, if_pos hphase]
    rfl
  | finalize =>
    rw [answer, Registry.finalize, if_pos hphase]
    rfl

/-- Once the plan was handed out, all requests are refused. -/
theorem run_of_finalized (hphase : r.phase = .finalized) (requests : List Request) :
    r.run requests = (requests.map Request.tooLate, r) := by
  induction requests with
  | nil => rfl
  | cons q rest ih =>
    rw [run_cons, answer_of_finalized hphase, ih]
    rfl

/-- Once the plan was handed out, nothing is accepted. -/
theorem acceptances_of_finalized (hphase : r.phase = .finalized) (requests : List Request) :
    acceptances requests (r.run requests).1 = [] := by
  rw [run_of_finalized hphase]
  induction requests with
  | nil => rfl
  | cons q rest ih =>
    rw [List.map_cons, acceptances_cons, ih]
    cases q <;> rfl

/-- **The lambdas accepted in a run** are those with a fingerprint that are
submitted before the plan is asked for. -/
theorem mem_acceptances_run_iff {o : Options} (hr : Reachable o r)
    (hphase : r.phase ≠ .finalized) (requests : List Request) :
    l ∈ acceptances requests (r.run requests).1 ↔
      .submit l ∈ requests.takeWhile (· ≠ .finalize) ∧
        ∃ hash, a.lambdaHash o.maxDepth l = .ok hash := by
  induction requests generalizing r with
  | nil => simp [acceptances]
  | cons q rest ih =>
    rw [run_cons, acceptances_cons, List.mem_append, Option.mem_toList]
    cases q with
    | finalize =>
      have hclosed : (r.answer .finalize).2.phase = .finalized := phase_finalize r
      rw [acceptances_of_finalized hclosed]
      simp [Request.accepted?]
    | submit m =>
      have hopen : (r.answer (.submit m)).2.phase ≠ .finalized := phase_submit hphase
      have htake : (Request.submit m :: rest).takeWhile (· ≠ .finalize) =
          .submit m :: rest.takeWhile (· ≠ .finalize) := rfl
      rw [hr.coherent.accepted?_eq_some_iff hphase, ih (hr.answer (.submit m)) hopen,
        hr.options_eq, htake, List.mem_cons, Request.submit.injEq, or_and_right]

end Registry

end LambdaSharing
