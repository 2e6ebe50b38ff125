import LambdaSharing.Proofs.Sharing.Coherence
import LambdaSharing.Sharing.CompilationUnit

/-!
# Requests and answers

What a registry does can be seen from outside as a sequence of answers to a
sequence of requests. Lambdas are submitted, the plan is asked for, and both
in any order: lambdas may be submitted again, or may not be readable, and
submissions may go on after the plan was handed out. Statements about "every
run" are about these sequences. They are said of anything that answers
requests, so that two ways of doing so can be held against each other.

A lambda counts as accepted once a submission of it was answered with a
reference. As an accepted lambda may be submitted again, the order of
acceptance is the order of the first such answers.
-/

namespace LambdaSharing

/-- What may be requested of a registry. -/
inductive Request where
  /-- Find out where a lambda belongs. -/
  | submit (l : LambdaId)
  /-- Hand out the plan. -/
  | finalize
deriving DecidableEq

/-- What a registry answers. -/
inductive Answer where
  /-- Where the submitted lambda belongs. -/
  | reference (x : Reference)
  /-- The plan that was asked for. -/
  | plan (p : Plan)
  | refusal (e : Refusal)

namespace Answer

/-- The answer to a submission. -/
def ofReference : Except Refusal Reference → Answer
  | .ok x => .reference x
  | .error e => .refusal e

/-- A submission is answered with a reference if it succeeds. -/
theorem ofReference_eq_reference_iff {y : Except Refusal Reference} {x : Reference} :
    ofReference y = .reference x ↔ y = .ok x := by
  cases y <;> simp [ofReference]

/-- The answer to the request for the plan. -/
def ofPlan : Except Refusal Plan → Answer
  | .ok p => .plan p
  | .error e => .refusal e

end Answer

/-- What a request is answered with that comes after the plan was handed out. -/
def Request.tooLate : Request → Answer
  | .submit l => .refusal (.submitAfterFinalize l)
  | .finalize => .refusal .alreadyFinalized

/-- Answer requests one after another, given how one is answered. -/
def answerAll {σ : Type} (answer : σ → Request → Answer × σ) (s : σ) :
    List Request → List Answer × σ
  | [] => ([], s)
  | q :: rest =>
    let (x, s) := answer s q
    let (xs, s) := answerAll answer s rest
    (x :: xs, s)

/-- The lambda that an answer accepts, now or again. -/
def Request.accepted? : Request → Answer → Option LambdaId
  | .submit l, .reference _ => some l
  | _, _ => none

/-- The lambdas that are accepted by answers to requests, as often as they are. -/
def acceptances (requests : List Request) (answers : List Answer) : List LambdaId :=
  (requests.zip answers).filterMap fun (q, x) => q.accepted? x

theorem acceptances_cons {q : Request} {x : Answer} {requests : List Request}
    {answers : List Answer} :
    acceptances (q :: requests) (x :: answers) =
      (q.accepted? x).toList ++ acceptances requests answers := by
  unfold acceptances
  rw [List.zip_cons_cons]
  cases h : q.accepted? x with
  | none => exact List.filterMap_cons_none h
  | some l => exact List.filterMap_cons_some h

/-- **The accepted lambdas**, in order of acceptance. -/
def accepted (requests : List Request) (answers : List Answer) : List LambdaId :=
  (acceptances requests answers).eraseDups

namespace Registry

variable {a : Arena} {r : Registry a}

/-- Answer one request. -/
def answer (r : Registry a) : Request → Answer × Registry a
  | .submit l => (.ofReference (r.submit l).1, (r.submit l).2)
  | .finalize => (.ofPlan r.finalize.1, r.finalize.2)

/-- **Answer requests one after another.** -/
def run (r : Registry a) (requests : List Request) : List Answer × Registry a :=
  answerAll answer r requests

/-- No request changes what the registry was told. -/
theorem options_answer (r : Registry a) (q : Request) : (r.answer q).2.options = r.options := by
  cases q with
  | submit l => exact r.options_submit l
  | finalize =>
    show r.finalize.2.options = r.options
    rw [finalize_snd]

theorem run_cons (q : Request) (rest : List Request) :
    r.run (q :: rest) =
      ((r.answer q).1 :: ((r.answer q).2.run rest).1, ((r.answer q).2.run rest).2) := rfl

/-- To submit lambdas one after the other is to run through submissions. -/
theorem submitAll_snd (r : Registry a) (ls : List LambdaId) :
    (r.submitAll ls).2 = (r.run (ls.map .submit)).2 := by
  induction ls generalizing r with
  | nil => rfl
  | cons l ls ih =>
    rw [List.map_cons, run_cons, submitAll]
    show _ = ((r.submit l).2.run (ls.map .submit)).2
    rcases r.submit l with ⟨refusal | x, r'⟩
    · exact ih r'
    · exact ih r'

/-- Answering a request leads to a reachable registry. -/
theorem Reachable.answer {o : Options} (h : Reachable o r) (q : Request) :
    Reachable o (r.answer q).2 := by
  cases q with
  | submit l => exact h.submit l
  | finalize => exact h.finalize

/-- A run of a reachable registry leads to reachable ones only. -/
theorem Reachable.run {o : Options} (h : Reachable o r) (requests : List Request) :
    Reachable o (r.run requests).2 := by
  induction requests generalizing r with
  | nil => exact h
  | cons q rest ih => exact ih (h.answer q)

/-- So do submissions of lambdas one after the other. -/
theorem Reachable.submissions {o : Options} (h : Reachable o r) (ls : List LambdaId) :
    Reachable o (r.submitAll ls).2 := by
  rw [submitAll_snd]
  exact h.run _

end Registry

end LambdaSharing
