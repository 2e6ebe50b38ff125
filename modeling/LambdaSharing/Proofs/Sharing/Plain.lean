import LambdaSharing.Proofs.Sharing.Acceptance
import LambdaSharing.Proofs.Sharing.Bookkeeping

/-!
# A registry without buckets

What a registry does can be said without buckets, ordinals and counts. A
*plain* registry knows only what it has answered, and compares a new lambda
with the first lambda of every class, one class after another in order of
creation, whatever their fingerprints. If it is asked for the plan, it works
it out from its answers. A registry that shares classes gives the same answers
to all requests, and has the same plan at every moment, apart from the record
of what was compared (`Registry.run_eq_plain`).

That a class in another bucket cannot be missed is due to coherence: it would
have the fingerprint of the lambda. It is not enough, because both registries
take the first class that will do, and a bucket may begin later. But no two
classes will do for one lambda, as their first lambdas would be equivalent;
so the order in which they are tried does not matter.
-/

namespace LambdaSharing

/-! ## Plain registries -/

/-- A registry that knows what it answered, and nothing else. -/
structure PlainRegistry (a : Arena) where
  options : Options
  /-- Whether the plan was handed out. -/
  finalized : Bool := false
  ledger : Ledger := {}

namespace PlainRegistry

variable {a : Arena}

/-- A plain registry that has accepted nothing. -/
def new (a : Arena) (options : Options) : PlainRegistry a := { options }

/-- Whether a lambda is equivalent to the first lambda of a class. -/
def suits (p : PlainRegistry a) (l : LambdaId) (x : Reference) : Bool :=
  a.compareLambdas p.options.policy p.options.maxDepth l x.canonical = .ok .equivalent

/-- Where a new lambda belongs: in the first class that suits it, or else in a
new one. -/
def reference (p : PlainRegistry a) (l : LambdaId) : Reference :=
  (p.ledger.classes.find? (p.suits l)).getD ⟨p.ledger.nextClass, l⟩

/-- Submit a lambda. It is refused only for want of a fingerprint. -/
def submit (p : PlainRegistry a) (l : LambdaId) : Except Refusal Reference × PlainRegistry a :=
  if p.finalized then
    (.error (.submitAfterFinalize l), p)
  else
    match p.ledger.reference? l with
    | some x => (.ok x, p)
    | none =>
      match a.lambdaHash p.options.maxDepth l with
      | .error fault => (.error (.faulty fault), p)
      | .ok _ => (.ok (p.reference l), { p with ledger := p.ledger.add l (p.reference l) })

/-- A new lambda with a fingerprint is put where it belongs. -/
theorem submit_of_lambdaHash {p : PlainRegistry a} {l : LambdaId} {hash : UInt64}
    (hopen : p.finalized = false) (hnew : p.ledger.reference? l = none)
    (hhash : a.lambdaHash p.options.maxDepth l = .ok hash) :
    p.submit l = (.ok (p.reference l), { p with ledger := p.ledger.add l (p.reference l) }) := by
  rw [submit, hopen, if_neg Bool.false_ne_true, hnew, hhash]

/-- The plan, worked out from the answers. -/
def plan (p : PlainRegistry a) : Plan := p.ledger.plan a p.options

/-- Hand out the plan. -/
def finalize (p : PlainRegistry a) : Except Refusal Plan × PlainRegistry a :=
  if p.finalized then
    (.error .alreadyFinalized, p)
  else
    (.ok p.plan, { p with finalized := true })

/-- Answer one request. -/
def answer (p : PlainRegistry a) : Request → Answer × PlainRegistry a
  | .submit l => (.ofReference (p.submit l).1, (p.submit l).2)
  | .finalize => (.ofPlan p.finalize.1, p.finalize.2)

/-- Answer requests one after another. -/
def run (p : PlainRegistry a) (requests : List Request) : List Answer × PlainRegistry a :=
  answerAll answer p requests

theorem run_cons {p : PlainRegistry a} (q : Request) (rest : List Request) :
    p.run (q :: rest) =
      ((p.answer q).1 :: ((p.answer q).2.run rest).1, ((p.answer q).2.run rest).2) := rfl

end PlainRegistry

/-- An answer without what only searches have left in a plan. -/
def Answer.withoutSearch : Answer → Answer
  | .plan p => .plan p.withoutSearch
  | x => x

theorem Answer.withoutSearch_ofReference {x : Except Refusal Reference} :
    (ofReference x).withoutSearch = ofReference x := by
  cases x <;> rfl

namespace Registry

variable {a : Arena} {r : Registry a} {g : Ledger} {l : LambdaId} {e : Examination}

/-! ## The same answers -/

/-- The plain registry that stands where a registry stands, given its ledger. -/
def plain (r : Registry a) (g : Ledger) : PlainRegistry a where
  options := r.options
  finalized := r.phase = .finalized
  ledger := g

theorem finalized_plain_iff : (r.plain g).finalized = true ↔ r.phase = .finalized :=
  decide_eq_true_iff

/-- Accepting a lambda changes a plain registry by an entry. -/
theorem plain_accept (hphase : r.phase ≠ .finalized) {g' : Ledger} :
    (r.accept l e).2.plain g' = { r.plain g with ledger := g' } := by
  unfold plain
  rw [options_accept, phase_accept, decide_eq_false hphase]
  rfl

namespace Keeps

/-- A class suits a lambda if its first lambda is alike. -/
theorem suits_iff (hshared : r.options.deduplicate = true) {x : Reference} :
    (r.plain g).suits l x = true ↔ r.options.Alike a l x.canonical :=
  decide_eq_true_iff.trans (Options.alike_of_deduplicate hshared).symm

/-- A lambda belongs in a class that suits it: there is no other such class. -/
theorem reference_of_suits (h : r.Keeps g) (hr : r.Coherent)
    (hshared : r.options.deduplicate = true) {x : Reference} (hx : x ∈ g.classes)
    (halike : r.options.Alike a l x.canonical) : (r.plain g).reference l = x := by
  have hsuits := (suits_iff (g := g) hshared).2 halike
  rw [PlainRegistry.reference]
  cases hfind : (r.plain g).ledger.classes.find? ((r.plain g).suits l) with
  | none => exact absurd hsuits (List.find?_eq_none.1 hfind x hx)
  | some y =>
    have hy : y ∈ g.classes := List.mem_of_find?_eq_some hfind
    have halike' := (suits_iff hshared).1 (List.find?_some hfind)
    have hnumber := hr.apart (h.leader?_eq hy) (h.leader?_eq hx) (halike'.symm.trans halike)
    exact h.kept.classId_inj hy hx hnumber

/-- **The search of a bucket finds what a search of all classes finds.** -/
theorem reference_eq (h : r.Keeps g) (hr : r.Coherent) (hshared : r.options.deduplicate = true)
    (hnew : r.canonical? l = none) (he : r.examine l = .ok e) :
    (r.plain g).reference l = (r.accept l e).1 := by
  cases hfound : e.search.found with
  | some found =>
    obtain ⟨id, c⟩ := found
    rw [reference_accept_of_found hfound]
    exact h.reference_of_suits hr hshared (h.found he hfound).1 (leader?_of_found he hfound).2
  | none =>
    have hnew := hr.canonical?_eq_none_iff.1 hnew
    have hfind : (r.plain g).ledger.classes.find? ((r.plain g).suits l) = none := by
      refine List.find?_eq_none.2 fun x hx hsuits => ?_
      exact hr.not_alike hnew he hfound (h.leader?_eq hx) ((suits_iff hshared).1 hsuits)
    rw [reference_accept_of_none hfound, Ledger.nextClass_of_withoutSearch h.plan,
      PlainRegistry.reference, hfind]
    rfl

/-- A submission is answered by both in the same way. -/
theorem submit_plain (h : r.Keeps g) (hr : r.Coherent) (hshared : r.options.deduplicate = true) :
    (r.plain g).submit l =
      ((r.submit l).1,
        (r.submit l).2.plain (g.record (.submit l) (.ofReference (r.submit l).1))) := by
  have hreference : (r.plain g).ledger.reference? l = r.canonical? l := h.canonical?_eq.symm
  have hoptions : (r.plain g).options = r.options := rfl
  unfold Registry.submit PlainRegistry.submit
  rw [hreference, hoptions]
  by_cases hphase : r.phase = .finalized
  · rw [if_pos hphase, if_pos (finalized_plain_iff.2 hphase)]
    rfl
  · rw [if_neg hphase, if_neg (mt finalized_plain_iff.1 hphase)]
    cases hx : r.canonical? l with
    | some x =>
      show _ = (_, r.plain (if l ∈ g.lambdas then g else g.add l x))
      rw [if_pos (h.mem_lambdas hx)]
    | none =>
      cases hhash : a.lambdaHash r.options.maxDepth l with
      | error fault =>
        rw [examine_of_lambdaHash_error hhash]
        rfl
      | ok hash =>
        obtain ⟨e, he⟩ := hr.examine_isOk hhash
        rw [he, h.reference_eq hr hshared hx he]
        show _ = (_, (r.accept l e).2.plain (if l ∈ g.lambdas then g else g.add l _))
        rw [if_neg (h.notMem_lambdas hx), plain_accept hphase]
        rfl

/-- Both have the same plan, apart from the record of searches. -/
theorem plan_plain (h : r.Keeps g) : (r.plain g).plan = r.draft.withoutSearch := h.plan.symm

/-- The request for the plan is answered by both in the same way. -/
theorem finalize_plain (h : r.Keeps g) :
    (Answer.ofPlan (r.plain g).finalize.1, (r.plain g).finalize.2) =
      ((Answer.ofPlan r.finalize.1).withoutSearch, r.finalize.2.plain g) := by
  unfold PlainRegistry.finalize Registry.finalize
  by_cases hphase : r.phase = .finalized
  · rw [if_pos hphase, if_pos (finalized_plain_iff.2 hphase)]
    rfl
  · rw [if_neg hphase, if_neg (mt finalized_plain_iff.1 hphase), h.plan_plain]
    rfl

/-- **One request is answered by both in the same way**, and then they stand
in the same place again. -/
theorem answer_plain (h : r.Keeps g) (hr : r.Coherent) (hshared : r.options.deduplicate = true)
    (q : Request) :
    (r.plain g).answer q =
      ((r.answer q).1.withoutSearch, (r.answer q).2.plain (g.record q (r.answer q).1)) := by
  cases q with
  | submit l =>
    rw [PlainRegistry.answer, h.submit_plain hr hshared, Registry.answer,
      Answer.withoutSearch_ofReference]
  | finalize => exact h.finalize_plain

/-- **All requests are answered by both in the same way.** -/
theorem run_plain {o : Options} (h : r.Keeps g) (hr : Reachable o r)
    (hshared : o.deduplicate = true) (requests : List Request) :
    (r.plain g).run requests =
      ((r.run requests).1.map Answer.withoutSearch,
        (r.run requests).2.plain (g.recordAll requests (r.run requests).1)) := by
  induction requests generalizing r g with
  | nil => rfl
  | cons q rest ih =>
    rw [PlainRegistry.run_cons, run_cons,
      h.answer_plain hr.coherent (hr.options_eq ▸ hshared), ih (h.answer q) (hr.answer q)]
    rfl

end Keeps

/-- What is folded into what can be told without the record of searches. -/
theorem deduplicated_withoutSearch (p : Plan) : p.withoutSearch.deduplicated = p.deduplicated := rfl

/-- **Buckets save comparisons and change nothing.** If classes are shared, a
registry gives the same answers to any sequence of requests as one that
compares a new lambda with all classes in order of creation; and in the end,
too, both have the same plan, and fold the same lambdas into the same ones. In
the plans that are handed out, and in the last one, only the comparisons, the
collisions among them, and their record may differ. -/
theorem run_eq_plain (a : Arena) (o : Options) (hshared : o.deduplicate = true)
    (requests : List Request) :
    ((new a o).run requests).1.map Answer.withoutSearch =
        ((PlainRegistry.new a o).run requests).1 ∧
      ((new a o).run requests).2.draft.withoutSearch =
        ((PlainRegistry.new a o).run requests).2.plan ∧
      ((new a o).run requests).2.draft.deduplicated =
        ((PlainRegistry.new a o).run requests).2.plan.deduplicated := by
  have hrun := (Keeps.new a o).run_plain .new hshared requests
  have hnew : (new a o).plain {} = PlainRegistry.new a o := rfl
  rw [hnew] at hrun
  rw [hrun, ((Keeps.new a o).run requests).plan_plain, deduplicated_withoutSearch]
  exact ⟨rfl, rfl, rfl⟩

/-- Of the five lambdas, the first two get the same answer, which is found
without any buckets, and one that does not exist is refused. -/
theorem run_eq_plain_of_fiveLambdas :
    let o : Options := ⟨true, .positional, 2, {}⟩
    let requests := [.submit ⟨0⟩, .submit ⟨1⟩, .submit ⟨9⟩]
    o.deduplicate = true ∧
      ((new Arena.fiveLambdas o).run requests).1.map Answer.withoutSearch =
        [.reference ⟨⟨0⟩, ⟨0⟩⟩, .reference ⟨⟨0⟩, ⟨0⟩⟩,
          .refusal (.faulty (.unknownLambda ⟨9⟩))] := by
  intro o requests
  have h₀ := @Arena.lambdaHash_of_words Arena.fiveLambdas 2 ⟨0⟩ _ rfl
  have h₁ := @Arena.lambdaHash_of_words Arena.fiveLambdas 2 ⟨1⟩ _ rfl
  have hequivalent : Arena.fiveLambdas.compareLambdas .positional 2 ⟨1⟩ ⟨0⟩ = .ok .equivalent := by
    rw [Arena.compareLambdas_eq]
    rfl
  let x : Reference := ⟨⟨0⟩, ⟨0⟩⟩
  let p₀ : PlainRegistry Arena.fiveLambdas := .new _ o
  let p₁ : PlainRegistry Arena.fiveLambdas := { p₀ with ledger := p₀.ledger.add ⟨0⟩ x }
  let p₂ : PlainRegistry Arena.fiveLambdas := { p₁ with ledger := p₁.ledger.add ⟨1⟩ x }
  have hsubmit₀ : p₀.submit ⟨0⟩ = (.ok x, p₁) := PlainRegistry.submit_of_lambdaHash rfl rfl h₀
  have hreference : p₁.reference ⟨1⟩ = x := by
    have hsuits : p₁.suits ⟨1⟩ x = true := decide_eq_true hequivalent
    show (List.find? _ [x]).getD _ = x
    rw [List.find?_cons_of_pos hsuits]
    rfl
  have hsubmit₁ : p₁.submit ⟨1⟩ = (.ok x, p₂) := by
    rw [PlainRegistry.submit_of_lambdaHash rfl rfl h₁, hreference]
  have hsubmit₉ : p₂.submit ⟨9⟩ = (.error (.faulty (.unknownLambda ⟨9⟩)), p₂) := rfl
  refine ⟨rfl, ?_⟩
  rw [(run_eq_plain _ _ rfl requests).1]
  show [Answer.ofReference (p₀.submit ⟨0⟩).1, .ofReference ((p₀.submit ⟨0⟩).2.submit ⟨1⟩).1,
    .ofReference (((p₀.submit ⟨0⟩).2.submit ⟨1⟩).2.submit ⟨9⟩).1] = _
  rw [hsubmit₀, hsubmit₁, hsubmit₉]
  rfl

end Registry

end LambdaSharing
