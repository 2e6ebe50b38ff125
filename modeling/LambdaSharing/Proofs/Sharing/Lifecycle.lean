import LambdaSharing.Proofs.Sharing.Acceptance

/-!
# The life of a registry

A registry is empty until it accepts a lambda, is populated from then on, and
is closed once its plan has been asked for. In between, requests may fail: a
lambda cannot be read, or comes too late. A request that fails leaves no trace
in the registry, although the examination that it failed may have computed a
fingerprint and compared the lambda with several others. Nor does a lambda
leave another trace when it is submitted again.

What the registry was answering all along is enough to tell its phase
(`Registry.run_lifecycle`). That a lambda which is submitted again does not
populate an empty registry is the one point to look at, since such a
submission is answered as if it had been accepted: an empty registry knows no
lambda that could be submitted again, because it is as good as new
(`Registry.Reachable.eq_new_of_empty`).
-/

namespace LambdaSharing

namespace Registry

variable {a : Arena} {r : Registry a} {o : Options} {l m : LambdaId} {x : Reference}

/-! ## What was answered stays -/

namespace Coherent

/-- A submission moves no lambda that was accepted. -/
theorem canonical?_submit (h : r.Coherent) (hx : r.canonical? l = some x) (m : LambdaId) :
    (r.submit m).2.canonical? l = some x := by
  rcases submit_cases r m with ⟨refusal, hsubmit⟩ | ⟨y, -, hsubmit⟩ | ⟨e, -, hnew, he, hsubmit⟩
  · rwa [hsubmit]
  · rwa [hsubmit]
  · rw [hsubmit]
    exact (h.canonical?_accept_iff (h.canonical?_eq_none_iff.1 hnew) he).2 (.inr hx)

/-- A submitted lambda is found where the answer says. -/
theorem canonical?_of_submit (h : r.Coherent) (hx : (r.submit l).1 = .ok x) :
    (r.submit l).2.canonical? l = some x := by
  rcases submit_cases r l with ⟨refusal, hsubmit⟩ | ⟨y, hy, hsubmit⟩ | ⟨e, -, hnew, he, hsubmit⟩
  · rw [hsubmit] at hx
    cases hx
  · rw [hsubmit] at hx ⊢
    rw [hy, Except.ok.inj hx]
  · rw [hsubmit] at hx ⊢
    have hanswer := Except.ok.inj hx
    exact (h.canonical?_accept_iff (h.canonical?_eq_none_iff.1 hnew) he).2
      (.inl ⟨rfl, hanswer.symm⟩)

/-- A request moves no lambda that was accepted. -/
theorem canonical?_answer (h : r.Coherent) (hx : r.canonical? l = some x) (q : Request) :
    (r.answer q).2.canonical? l = some x := by
  cases q with
  | submit m => exact h.canonical?_submit hx m
  | finalize =>
    show r.finalize.2.canonical? l = some x
    rw [finalize_snd]
    exact hx

end Coherent

/-- A run moves no lambda that was accepted. -/
theorem Reachable.canonical?_run (h : Reachable o r) (hx : r.canonical? l = some x)
    (requests : List Request) : (r.run requests).2.canonical? l = some x := by
  induction requests generalizing r with
  | nil => exact hx
  | cons q rest ih => exact ih (h.answer q) (h.coherent.canonical?_answer hx q)

/-- **After a run, a lambda is where the run said.** -/
theorem Reachable.canonical?_of_mem_run (h : Reachable o r) {requests : List Request}
    (hx : (.submit l, .reference x) ∈ requests.zip (r.run requests).1) :
    (r.run requests).2.canonical? l = some x := by
  induction requests generalizing r with
  | nil => cases hx
  | cons q rest ih =>
    rw [run_cons, List.zip_cons_cons] at hx
    rw [run_cons]
    rcases List.mem_cons.1 hx with hfirst | hlater
    · obtain ⟨rfl, hanswer⟩ := Prod.mk.inj hfirst
      have hsubmit := Answer.ofReference_eq_reference_iff.1 hanswer.symm
      exact (h.submit l).canonical?_run (h.coherent.canonical?_of_submit hsubmit) rest
    · exact ih (h.answer q) hlater

/-! ## Phases -/

/-- **An empty registry is as good as new.** -/
theorem Reachable.eq_new_of_empty (h : Reachable o r) (hphase : r.phase = .empty) :
    r = Registry.new a o := by
  induction h with
  | new => rfl
  | @submit r h l ih =>
    rcases submit_cases r l with ⟨refusal, hsubmit⟩ | ⟨y, -, hsubmit⟩ | ⟨e, -, -, -, hsubmit⟩
    · rw [hsubmit] at hphase ⊢
      exact ih hphase
    · rw [hsubmit] at hphase ⊢
      exact ih hphase
    · rw [hsubmit, phase_accept] at hphase
      cases hphase
  | @finalize r h ih =>
    rw [phase_finalize] at hphase
    cases hphase

/-- An empty registry knows no lambda. -/
theorem Reachable.canonical?_of_empty (h : Reachable o r) (hphase : r.phase = .empty) :
    r.canonical? l = none := by
  rw [h.eq_new_of_empty hphase]
  exact canonical?_new a o l

/-- A submission that is answered with a reference populates the registry,
and no other one does. -/
theorem Reachable.phase_answer (h : Reachable o r) (hphase : r.phase ≠ .finalized)
    (m : LambdaId) :
    (r.answer (.submit m)).2.phase =
      if (Request.submit m).accepted? (r.answer (.submit m)).1 = none then r.phase
      else .populating := by
  show (r.submit m).2.phase =
    if (Request.submit m).accepted? (.ofReference (r.submit m).1) = none then _ else _
  rcases submit_cases r m with ⟨refusal, hsubmit⟩ | ⟨y, hy, hsubmit⟩ | ⟨e, -, -, -, hsubmit⟩
  · rw [hsubmit]
    rfl
  · -- the lambda is known, so the registry is populated already
    have hpopulated : r.phase = .populating := by
      cases hr : r.phase with
      | empty => rw [h.canonical?_of_empty hr] at hy; cases hy
      | populating => rfl
      | finalized => exact absurd hr hphase
    rw [hsubmit]
    exact hpopulated
  · rw [hsubmit]
    exact phase_accept

/-- Until the plan is asked for, a registry is populated by what it accepts. -/
theorem Reachable.phase_run (h : Reachable o r) (hphase : r.phase ≠ .finalized)
    {requests : List Request} (hopen : .finalize ∉ requests) :
    (r.run requests).2.phase =
      if acceptances requests (r.run requests).1 = [] then r.phase else .populating := by
  induction requests generalizing r with
  | nil => rfl
  | cons q rest ih =>
    cases q with
    | finalize => exact absurd List.mem_cons_self hopen
    | submit m =>
      have hphase' : (r.answer (.submit m)).2.phase ≠ .finalized := phase_submit hphase
      rw [run_cons, acceptances_cons,
        ih (h.answer (.submit m)) hphase' (hopen ∘ List.mem_cons_of_mem _),
        h.phase_answer hphase m]
      cases (Request.submit m).accepted? (r.answer (.submit m)).1 with
      | none => rfl
      | some l =>
        -- populated by this one, whether or not more are accepted later
        rw [if_neg (Option.some_ne_none l), ite_self]
        rfl

/-- As long as the plan is not asked for, a registry stays open. -/
theorem Reachable.phase_run_ne_finalized (h : Reachable o r) (hphase : r.phase ≠ .finalized)
    {requests : List Request} (hopen : .finalize ∉ requests) :
    (r.run requests).2.phase ≠ .finalized := by
  rw [h.phase_run hphase hopen]
  split
  · exact hphase
  · exact Phase.noConfusion

/-- Once the plan was asked for, a registry stays closed. -/
theorem phase_run_of_finalize {requests : List Request} (hmem : .finalize ∈ requests) :
    (r.run requests).2.phase = .finalized := by
  induction requests generalizing r with
  | nil => cases hmem
  | cons q rest ih =>
    rw [run_cons]
    cases q with
    | finalize =>
      have hclosed : (r.answer .finalize).2.phase = .finalized := phase_finalize r
      rw [run_of_finalized hclosed]
      exact hclosed
    | submit m =>
      rcases List.mem_cons.1 hmem with hfirst | hlater
      · cases hfirst
      · exact ih hlater

/-- **The life of a registry.** After any requests, a submission that is
refused leaves the registry as it is, and so does one of a lambda that was
accepted before, which is answered in the same way again. The registry is
empty as long as nothing was accepted, then populated, and closed from the
first request for the plan on; and then all requests are refused as too late,
and nothing changes any more. -/
theorem run_lifecycle {requests : List Request} {answers : List Answer}
    (h : (new a o).run requests = (answers, r)) :
    (∀ l refusal, (r.submit l).1 = .error refusal → (r.submit l).2 = r) ∧
    (∀ l x, (.submit l, .reference x) ∈ requests.zip answers → .finalize ∉ requests →
      r.submit l = (.ok x, r)) ∧
    r.phase = (if .finalize ∈ requests then .finalized
      else if acceptances requests answers = [] then .empty else .populating) ∧
    (.finalize ∈ requests → ∀ later, r.run later = (later.map Request.tooLate, r)) := by
  have hnew : Reachable o (new a o) := .new
  have hopen (hmem : .finalize ∉ requests) :
      r.phase = if acceptances requests answers = [] then .empty else .populating := by
    have hphase := hnew.phase_run Phase.noConfusion hmem
    rwa [h] at hphase
  have hclosed (hmem : .finalize ∈ requests) : r.phase = .finalized := by
    have hphase := phase_run_of_finalize (r := new a o) hmem
    rwa [h] at hphase
  refine ⟨?_, ?_, ?_, ?_⟩
  · intro l refusal hrefused
    exact eq_of_submit_error (Prod.ext hrefused rfl)
  · intro l x hx hmem
    have hknown : r.canonical? l = some x := by
      have hanswer : (.submit l, .reference x) ∈ requests.zip ((new a o).run requests).1 := by
        rwa [h]
      have hrun := hnew.canonical?_of_mem_run hanswer
      rwa [h] at hrun
    have hphase : ((new a o).run requests).2.phase ≠ .finalized :=
      hnew.phase_run_ne_finalized Phase.noConfusion hmem
    rw [h] at hphase
    rw [submit, if_neg hphase, hknown]
  · by_cases hmem : .finalize ∈ requests
    · rw [if_pos hmem]
      exact hclosed hmem
    · rw [if_neg hmem]
      exact hopen hmem
  · intro hmem later
    exact run_of_finalized (hclosed hmem) later

/-- Of the five lambdas, the first populates a registry that has refused an
unknown one, and when it is submitted again it is answered as before. Once
the plan was handed out it is refused, and no second plan is handed out. -/
theorem run_lifecycle_of_fiveLambdas :
    let r := new Arena.fiveLambdas ⟨true, .positional, 2, {}⟩
    (r.run [.submit ⟨9⟩]).2.phase = .empty ∧
      (∃ x, (r.run [.submit ⟨9⟩, .submit ⟨0⟩]).1 =
          [.refusal (.faulty (.unknownLambda ⟨9⟩)), .reference x] ∧
        (r.run [.submit ⟨9⟩, .submit ⟨0⟩]).2.submit ⟨0⟩ =
          (.ok x, (r.run [.submit ⟨9⟩, .submit ⟨0⟩]).2) ∧
        (r.run [.submit ⟨9⟩, .submit ⟨0⟩]).2.phase = .populating) ∧
      (r.run [.submit ⟨0⟩, .finalize]).2.run [.submit ⟨0⟩, .finalize] =
        ([.refusal (.submitAfterFinalize ⟨0⟩), .refusal .alreadyFinalized],
          (r.run [.submit ⟨0⟩, .finalize]).2) := by
  intro r
  have h₀ := @Arena.lambdaHash_of_words Arena.fiveLambdas 2 ⟨0⟩ _ rfl
  have hrefused : r.submit ⟨9⟩ = (.error (.faulty (.unknownLambda ⟨9⟩)), r) := rfl
  obtain ⟨x, hx⟩ := (Coherent.new Arena.fiveLambdas ⟨true, .positional, 2, {}⟩).submit_isOk
    Phase.noConfusion h₀
  have hanswers : (r.run [.submit ⟨9⟩, .submit ⟨0⟩]).1 =
      [.refusal (.faulty (.unknownLambda ⟨9⟩)), .reference x] := by
    show [Answer.ofReference (r.submit ⟨9⟩).1, .ofReference ((r.submit ⟨9⟩).2.submit ⟨0⟩).1] = _
    rw [hrefused, hx]
    rfl
  have hpopulated := run_lifecycle (Prod.ext hanswers rfl)
  refine ⟨(run_lifecycle rfl).2.2.1, ⟨x, hanswers, ?_, hpopulated.2.2.1⟩, ?_⟩
  · exact hpopulated.2.1 ⟨0⟩ x (List.mem_cons_of_mem _ List.mem_cons_self) (by simp)
  · exact (run_lifecycle rfl).2.2.2 (by simp) [.submit ⟨0⟩, .finalize]

end Registry

end LambdaSharing
