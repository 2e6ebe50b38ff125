import LambdaSharing.Proofs.Sharing.Lifecycle
import LambdaSharing.Proofs.Sharing.Representation

/-!
# History is only added to

Code is emitted while lambdas are still being submitted: a call site is
written as soon as its lambda was answered, and refers to a class by its
number. So no later request may change an answer that was given. A registry
does not store its answers, however. It works them out anew whenever it is
asked, from a table of numbers and from the classes, and the classes are
changed in place when a lambda is folded.

Between two moments of a run, the plan only grows (`Plan.GrowsInto`). Classes
stay in their places, with everything that identifies them, and get members
behind those they have; what is recorded in order is recorded behind what is
there. Each step of a registry is of this kind, and so is a run. As the
number of a class is its place, an answer that was given once is given ever
after, by the registry as well as by the plan that it hands out
(`Registry.run_history`).
-/

namespace LambdaSharing

/-! ## Growing -/

/-- **A class grows** by members that are put behind those it has. -/
structure SharingClass.GrowsInto (c d : SharingClass) : Prop where
  id : d.id = c.id
  canonical : d.canonical = c.canonical
  hash : d.hash = c.hash
  method : d.method = c.method
  members : c.members.toList <+: d.members.toList

/-- **A plan grows** by new classes, by members of the classes it has, and by
what is recorded behind the earlier records. -/
structure Plan.GrowsInto (p q : Plan) : Prop where
  /-- Every class is still in its place. -/
  classes : ∀ {i : Nat} {c}, p.classes[i]? = some c → ∃ d, q.classes[i]? = some d ∧ c.GrowsInto d
  callSites : p.callSites.toList <+: q.callSites.toList
  notes : p.notes.toList <+: q.notes.toList
  traces : p.traces.toList <+: q.traces.toList

namespace SharingClass.GrowsInto

variable {c d e : SharingClass}

theorem refl (c : SharingClass) : c.GrowsInto c := ⟨rfl, rfl, rfl, rfl, List.prefix_rfl⟩

theorem trans (h : c.GrowsInto d) (h' : d.GrowsInto e) : c.GrowsInto e where
  id := h'.id.trans h.id
  canonical := h'.canonical.trans h.canonical
  hash := h'.hash.trans h.hash
  method := h'.method.trans h.method
  members := h.members.trans h'.members

/-- A class grows by a lambda that joins it. -/
theorem push (c : SharingClass) (l : LambdaId) :
    c.GrowsInto { c with members := c.members.push l } := by
  refine ⟨rfl, rfl, rfl, rfl, ?_⟩
  rw [Array.toList_push]
  exact List.prefix_append _ _

end SharingClass.GrowsInto

namespace Plan

variable {p q s : Plan} {reports : Reports} {search : Search} {l : LambdaId}
  {captures : List SymbolId} {id : ClassId} {c : SharingClass} {hash : UInt64} {method : Method}

namespace GrowsInto

theorem refl (p : Plan) : p.GrowsInto p :=
  ⟨fun hc => ⟨_, hc, .refl _⟩, List.prefix_rfl, List.prefix_rfl, List.prefix_rfl⟩

theorem trans (h : p.GrowsInto q) (h' : q.GrowsInto s) : p.GrowsInto s where
  classes hc := by
    obtain ⟨d, hd, hcd⟩ := h.classes hc
    obtain ⟨e, he, hde⟩ := h'.classes hd
    exact ⟨e, he, hcd.trans hde⟩
  callSites := h.callSites.trans h'.callSites
  notes := h.notes.trans h'.notes
  traces := h.traces.trans h'.traces

/-! ### What a submission does to a plan -/

/-- What is recorded if it is wanted comes behind the earlier records. -/
theorem prefix_ite {α : Type} {xs : Array α} {x : α} {wanted : Prop} [Decidable wanted] :
    xs.toList <+: (if wanted then xs.push x else xs).toList := by
  split
  · rw [Array.toList_push]
    exact List.prefix_append _ _
  · exact List.prefix_rfl

/-- Counting a search adds the comparisons that were made. -/
theorem count : p.GrowsInto (p.count search) where
  classes hc := ⟨_, hc, .refl _⟩
  callSites := List.prefix_rfl
  notes := List.prefix_rfl
  traces := by
    show _ <+: (p.traces ++ search.traces).toList
    rw [Array.toList_append]
    exact List.prefix_append _ _

/-- Folding a lambda changes its class, which grows. -/
theorem fold : p.GrowsInto (p.fold reports l captures id c) where
  classes {i d} hd := by
    show ∃ e, (p.classes.modify _ _)[i]? = some e ∧ d.GrowsInto e
    rw [Array.getElem?_modify, hd]
    by_cases h : id.index.toNat = i
    · rw [if_pos h]
      exact ⟨_, rfl, .push d l⟩
    · rw [if_neg h]
      exact ⟨d, rfl, .refl d⟩
  callSites := by
    show _ <+: (p.callSites.push _).toList
    rw [Array.toList_push]
    exact List.prefix_append _ _
  notes := prefix_ite
  traces := List.prefix_rfl

/-- Starting a class leaves the others where they are. -/
theorem create : p.GrowsInto (p.create reports l captures hash method) where
  classes {i d} hd := by
    refine ⟨d, ?_, .refl d⟩
    show (p.classes.push _)[i]? = some d
    obtain ⟨hi, rfl⟩ := Array.getElem?_eq_some_iff.1 hd
    exact Array.getElem?_push_lt hi
  callSites := by
    show _ <+: (p.callSites.push _).toList
    rw [Array.toList_push]
    exact List.prefix_append _ _
  notes := prefix_ite
  traces := List.prefix_rfl

end GrowsInto

end Plan

namespace Registry

variable {a : Arena} {r r' : Registry a} {o : Options} {l : LambdaId} {e : Examination}

/-! ## What a run does to a plan -/

theorem growsInto_accept : r.draft.GrowsInto (r.accept l e).2.draft := by
  cases hfound : e.search.found with
  | some found =>
    rw [accept_of_found hfound]
    exact .trans .count .fold
  | none =>
    rw [accept_of_none hfound]
    exact .trans .count .create

/-- **One request adds to the plan.** -/
theorem growsInto_answer (r : Registry a) (q : Request) :
    r.draft.GrowsInto (r.answer q).2.draft := by
  cases q with
  | finalize =>
    show r.draft.GrowsInto r.finalize.2.draft
    rw [finalize_snd]
    exact .refl _
  | submit l =>
    show r.draft.GrowsInto (r.submit l).2.draft
    rcases submit_cases r l with ⟨refusal, hsubmit⟩ | ⟨x, -, hsubmit⟩ | ⟨e, -, -, -, hsubmit⟩
    · rw [hsubmit]
      exact .refl _
    · rw [hsubmit]
      exact .refl _
    · rw [hsubmit]
      exact growsInto_accept

/-- **A run adds to the plan.** -/
theorem growsInto_run (r : Registry a) (requests : List Request) :
    r.draft.GrowsInto (r.run requests).2.draft := by
  induction requests generalizing r with
  | nil => exact .refl _
  | cons q rest ih => exact (r.growsInto_answer q).trans (ih (r.answer q).2)

/-! ## What a run has answered -/

/-- A run can be interrupted. -/
theorem run_append (r : Registry a) (earlier later : List Request) :
    r.run (earlier ++ later) =
      ((r.run earlier).1 ++ ((r.run earlier).2.run later).1, ((r.run earlier).2.run later).2) := by
  induction earlier generalizing r with
  | nil => rfl
  | cons q rest ih =>
    rw [List.cons_append, run_cons, ih (r.answer q).2]
    rfl

/-- So can a list of submissions, before the last one. -/
theorem submitAll_concat_snd (r : Registry a) (ls : List LambdaId) (l : LambdaId) :
    (r.submitAll (ls ++ [l])).2 = ((r.submitAll ls).2.submit l).2 := by
  rw [submitAll_snd, submitAll_snd, List.map_append, run_append]
  rfl

/-- There are as many answers as requests. -/
theorem length_run (r : Registry a) (requests : List Request) :
    (r.run requests).1.length = requests.length := by
  induction requests generalizing r with
  | nil => rfl
  | cons q rest ih => rw [run_cons, List.length_cons, List.length_cons, ih]

/-- The plan that is handed out in a run is still that of the registry in the
end. -/
theorem draft_of_mem_run {p : Plan} {requests : List Request}
    (hp : .plan p ∈ (r.run requests).1) : (r.run requests).2.draft = p := by
  induction requests generalizing r with
  | nil => cases hp
  | cons q rest ih =>
    rw [run_cons] at hp ⊢
    rcases List.mem_cons.1 hp with hfirst | hlater
    · cases q with
      | submit l =>
        change Answer.plan p = .ofReference (r.submit l).1 at hfirst
        cases hx : (r.submit l).1 with
        | ok x => rw [hx] at hfirst; cases hfirst
        | error e => rw [hx] at hfirst; cases hfirst
      | finalize =>
        have hclosed : (r.answer .finalize).2.phase = .finalized := phase_finalize r
        rw [run_of_finalized hclosed]
        change Answer.plan p = .ofPlan r.finalize.1 at hfirst
        by_cases hphase : r.phase = .finalized
        · rw [Registry.finalize, if_pos hphase] at hfirst
          cases hfirst
        · rw [Registry.finalize, if_neg hphase] at hfirst
          obtain rfl := Answer.plan.inj hfirst
          show r.finalize.2.draft = r.draft
          rw [finalize_snd]
    · exact ih hlater

/-- If the plan was not handed out before, it is by asking for it in the end. -/
theorem plan_mem_run_concat {requests : List Request}
    (hphase : (r.run requests).2.phase ≠ .finalized) :
    .plan (r.run (requests ++ [.finalize])).2.draft ∈ (r.run (requests ++ [.finalize])).1 := by
  rw [run_append]
  show Answer.plan (r.run requests).2.finalize.2.draft ∈
    (r.run requests).1 ++ [.ofPlan (r.run requests).2.finalize.1]
  rw [finalize, if_neg hphase]
  exact List.mem_append_right _ (List.mem_singleton_self _)

/-- **A registry knows the lambdas that it has accepted**, and no others. -/
theorem canonical?_run_eq_none_iff (a : Arena) (o : Options) (requests : List Request)
    (l : LambdaId) :
    ((new a o).run requests).2.canonical? l = none ↔
      l ∉ accepted requests ((new a o).run requests).1 := by
  have hkeeps := (Keeps.new a o).run requests
  have hlambdas := Ledger.lambdas_recordAll (g := {}) [] rfl requests ((new a o).run requests).1
  rw [List.nil_append] at hlambdas
  rw [hkeeps.canonical?_eq, hkeeps.kept.reference?_eq_none_iff, accepted, hlambdas]

/-- **History is only added to.** Between an earlier and a later moment of a
run, the plan grows: classes stay where they are and what they are, with their
members at the front, and call sites, notes and records of comparisons stay in
front of those that come later. What a lambda was answered with is what the
registry says of it at any later moment, what it is answered with whenever it
is submitted again and not refused, and what the plan says that is handed out.
A registry says nothing of lambdas that it has not accepted. -/
theorem run_history {earlier later : List Request} {answers answers' : List Answer}
    (h : (new a o).run earlier = (answers, r)) (h' : r.run later = (answers', r')) :
    r.draft.GrowsInto r'.draft ∧
    (∀ l x, (.submit l, .reference x) ∈ earlier.zip answers →
      r'.canonical? l = some x ∧
      (∀ y, (.submit l, .reference y) ∈ (earlier ++ later).zip (answers ++ answers') → y = x) ∧
      (r'.phase ≠ .finalized → (r'.submit l).1 = .ok x)) ∧
    (∀ p, .plan p ∈ answers ++ answers' → ∀ l, p.canonical? l = r'.canonical? l) ∧
    ∀ l, r'.canonical? l = none ↔ l ∉ accepted (earlier ++ later) (answers ++ answers') := by
  have hnew : Reachable o (new a o) := .new
  have hrun : (new a o).run (earlier ++ later) = (answers ++ answers', r') := by
    rw [run_append, h, h']
  have hlength : earlier.length = answers.length := by
    have hlength := (new a o).length_run earlier
    rw [h] at hlength
    exact hlength.symm
  -- what was answered at any moment is what the registry says in the end
  have hanswered {l : LambdaId} {x : Reference}
      (hx : (.submit l, .reference x) ∈ (earlier ++ later).zip (answers ++ answers')) :
      r'.canonical? l = some x := by
    have hknown := @Reachable.canonical?_of_mem_run _ _ _ l x hnew (earlier ++ later)
    rw [hrun] at hknown
    exact hknown hx
  refine ⟨?_, ?_, ?_, ?_⟩
  · have hgrows := r.growsInto_run later
    rwa [h'] at hgrows
  · intro l x hx
    have hknown : r'.canonical? l = some x := by
      refine hanswered ?_
      rw [List.zip_append hlength]
      exact List.mem_append_left _ hx
    refine ⟨hknown, fun y hy => ?_, fun hphase => ?_⟩
    · exact Option.some.inj ((hanswered hy).symm.trans hknown)
    · rw [submit, if_neg hphase, hknown]
  · intro p hp l
    have hdraft : .plan p ∈ ((new a o).run (earlier ++ later)).1 →
      ((new a o).run (earlier ++ later)).2.draft = p := draft_of_mem_run
    rw [hrun] at hdraft
    rw [← hdraft hp]
    rfl
  · intro l
    have hknown := canonical?_run_eq_none_iff a o (earlier ++ later) l
    rwa [hrun] at hknown

/-- The second of the five lambdas joins the class of the first, which grows by
it; and of the first lambda, what was answered at the beginning is said in the
end. -/
theorem run_history_of_fiveLambdas :
    let o : Options := ⟨true, .positional, 2, {}⟩
    let r := ((new Arena.fiveLambdas o).run [.submit ⟨0⟩]).2
    let later : List Request := [.submit ⟨9⟩, .submit ⟨2⟩, .submit ⟨1⟩, .finalize]
    let r' := (r.run later).2
    ((new Arena.fiveLambdas o).submit ⟨0⟩).1 = .ok ⟨⟨0⟩, ⟨0⟩⟩ ∧
      r.draft.classes.toList.map (·.members) = [#[⟨0⟩]] ∧
      r'.draft.classes.toList.map (·.members) = [#[⟨0⟩, ⟨1⟩], #[⟨2⟩]] ∧
      r.draft.GrowsInto r'.draft ∧ r'.canonical? ⟨0⟩ = some ⟨⟨0⟩, ⟨0⟩⟩ := by
  intro o r later r'
  have hsubmit : ((new Arena.fiveLambdas o).submit ⟨0⟩).1 = .ok ⟨⟨0⟩, ⟨0⟩⟩ := by decide +kernel
  have hanswers : ((new Arena.fiveLambdas o).run [.submit ⟨0⟩]).1 =
      [.reference ⟨⟨0⟩, ⟨0⟩⟩] := congrArg (fun x => [Answer.ofReference x]) hsubmit
  obtain ⟨hgrows, hknown, -⟩ := run_history (Prod.ext hanswers rfl) (Prod.eta (r.run later)).symm
  obtain ⟨hknown, -⟩ := hknown ⟨0⟩ ⟨⟨0⟩, ⟨0⟩⟩ List.mem_cons_self
  exact ⟨hsubmit, by decide +kernel, by decide +kernel, hgrows, hknown⟩

end Registry

end LambdaSharing
