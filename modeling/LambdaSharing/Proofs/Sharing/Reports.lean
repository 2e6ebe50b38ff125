import LambdaSharing.Proofs.Sharing.History

/-!
# Reports have no influence

Reports are asked for when something looks wrong, and then they had better
show what would have happened without them. This is not obvious from the
program. Notes and records are written in the middle of the branches that
change the plan, between the class that is found and the call site that refers
to it, and they are kept in the plan itself, beside what code is generated
from.

A registry that makes no reports does the same as one that does, except that
there are none. This is an equation (`Registry.run_silent`): to leave out the
reports of a run, of its answers and of the registry that it leads to, is to
run without reports. Each step of a registry is of this kind, because no step
reads what was reported. Two runs that differ in the reports that were asked
for are therefore the same when these are left out, as both are then the run
without any.

What is reported can be read off from the rest of the plan, then. For records
of comparisons this is a matter of searches, but notes only repeat what call
sites and classes say (`Plan.note?`).
-/

namespace LambdaSharing

/-! ## Leaving out reports -/

/-- What a run is told, without the reports. -/
def Options.silent (o : Options) : Options := { o with reports := {} }

/-- **A plan without its reports.** -/
def Plan.silent (p : Plan) : Plan := { p with notes := #[], traces := #[] }

/-- A registry that makes no reports, and has made none. -/
def Registry.silent {a : Arena} (r : Registry a) : Registry a :=
  { r with options := r.options.silent, draft := r.draft.silent }

/-- A search that reports no comparisons. -/
def Search.silent (s : Search) : Search := { s with traces := #[] }

/-- What is known about a lambda, without reports. -/
def Registry.Examination.silent (e : Examination) : Examination :=
  { e with search := e.search.silent }

/-- An answer without reports. There are none but in plans. -/
def Answer.silent : Answer → Answer
  | .plan p => .plan p.silent
  | .reference x => .reference x
  | .refusal e => .refusal e

namespace Plan

variable {p : Plan} {reports : Reports} {s : Search} {l : LambdaId} {captures : List SymbolId}
  {id : ClassId} {c : SharingClass} {hash : UInt64} {method : Method}

/-- A search is counted in any case. -/
theorem silent_count : (p.count s).silent = p.silent.count s.silent := rfl

/-- A lambda joins a class in any case. -/
theorem silent_fold : (p.fold reports l captures id c).silent = p.silent.fold {} l captures id c :=
  rfl

/-- A lambda starts a class in any case. -/
theorem silent_create :
    (p.create reports l captures hash method).silent =
      p.silent.create {} l captures hash method := rfl

end Plan

namespace Registry

variable {a : Arena} {r : Registry a} {l : LambdaId} {e : Examination}

theorem silent_new (a : Arena) (o : Options) : (new a o).silent = new a o.silent := rfl

/-- **What is searched for, found and counted does not depend on reports.** -/
theorem searchAmong_silent (ids : List ClassId) :
    r.silent.searchAmong l ids = (r.searchAmong l ids).map Search.silent := by
  induction ids with
  | nil => rfl
  | cons id ids ih =>
    cases hclass : r.draft.class? id with
    | none =>
      have hclass' : r.silent.draft.class? id = none := hclass
      rw [searchAmong_cons_of_none hclass, searchAmong_cons_of_none hclass', ih]
    | some c =>
      have hclass' : r.silent.draft.class? id = some c := hclass
      rw [searchAmong_cons_of_some hclass, searchAmong_cons_of_some hclass', ih, map_of_bind]
      refine congrArg (a.compareLambdas _ _ l c.canonical >>= ·) (funext fun outcome => ?_)
      by_cases hequivalent : outcome.isEquivalent = true
      · rw [if_pos hequivalent, if_pos hequivalent]
        rfl
      · rw [if_neg hequivalent, if_neg hequivalent, map_of_map, map_of_map]
        rfl

/-- Nor does what is known about a lambda before it is accepted. -/
theorem examine_silent : r.silent.examine l = (r.examine l).map Examination.silent := by
  have hsearch (hash : UInt64) :
      (if r.options.deduplicate then r.silent.searchAmong l (r.bucket hash) else .ok {}) =
        (if r.options.deduplicate then r.searchAmong l (r.bucket hash) else .ok {}).map
          Search.silent := by
    by_cases hshared : r.options.deduplicate = true
    · rw [if_pos hshared, if_pos hshared, searchAmong_silent]
    · rw [if_neg hshared, if_neg hshared]
      rfl
  rw [examine_eq, examine_eq, map_of_bind]
  refine congrArg (a.scope l >>= ·) (funext fun s => ?_)
  rw [map_of_bind]
  refine congrArg (a.lambdaHash _ l >>= ·) (funext fun hash => ?_)
  show (if r.options.deduplicate then r.silent.searchAmong l (r.bucket hash) else .ok {}) >>= _ = _
  rw [hsearch, map_of_bind]
  cases (if r.options.deduplicate then r.searchAmong l (r.bucket hash) else .ok {}) <;> rfl

/-- A lambda is accepted as it is without reports. -/
theorem accept_silent :
    r.silent.accept l e.silent = ((r.accept l e).1, (r.accept l e).2.silent) := by
  cases hfound : e.search.found with
  | none =>
    have hfound' : e.silent.search.found = none := hfound
    rw [accept_of_none hfound, accept_of_none hfound']
    simp only [silent, Plan.silent_create, Plan.silent_count]
    rfl
  | some found =>
    have hfound' : e.silent.search.found = some found := hfound
    rw [accept_of_found hfound, accept_of_found hfound']
    simp only [silent, Plan.silent_fold, Plan.silent_count]
    rfl

/-- A submission is answered as it is without reports. -/
theorem submit_silent : r.silent.submit l = ((r.submit l).1, (r.submit l).2.silent) := by
  have hphase : r.silent.phase = r.phase := rfl
  have hcanonical : r.silent.canonical? l = r.canonical? l := rfl
  unfold submit
  rw [hphase, hcanonical, examine_silent]
  by_cases h : r.phase = .finalized
  · rw [if_pos h, if_pos h]
  · rw [if_neg h, if_neg h]
    cases r.canonical? l with
    | some x => rfl
    | none =>
      cases r.examine l with
      | error fault => rfl
      | ok e =>
        show (Except.ok (r.silent.accept l e.silent).1, (r.silent.accept l e.silent).2) = _
        rw [accept_silent]

/-- The plan that is handed out is the one without reports. -/
theorem finalize_silent :
    r.silent.finalize = (r.finalize.1.map Plan.silent, r.finalize.2.silent) := by
  have hphase : r.silent.phase = r.phase := rfl
  unfold finalize
  rw [hphase]
  by_cases h : r.phase = .finalized
  · rw [if_pos h, if_pos h]
    rfl
  · rw [if_neg h, if_neg h]
    rfl

/-- **To leave out the reports of an answer is to be asked without reports.** -/
theorem answer_silent (q : Request) :
    r.silent.answer q = ((r.answer q).1.silent, (r.answer q).2.silent) := by
  cases q with
  | submit l =>
    show (Answer.ofReference (r.silent.submit l).1, (r.silent.submit l).2) =
      ((Answer.ofReference (r.submit l).1).silent, (r.submit l).2.silent)
    rw [submit_silent]
    cases (r.submit l).1 <;> rfl
  | finalize =>
    show (Answer.ofPlan r.silent.finalize.1, r.silent.finalize.2) =
      ((Answer.ofPlan r.finalize.1).silent, r.finalize.2.silent)
    rw [finalize_silent]
    cases r.finalize.1 <;> rfl

/-- **To leave out the reports of a run is to run without reports.** -/
theorem run_silent (requests : List Request) :
    r.silent.run requests =
      ((r.run requests).1.map Answer.silent, (r.run requests).2.silent) := by
  induction requests generalizing r with
  | nil => rfl
  | cons q rest ih =>
    rw [run_cons, run_cons, answer_silent, ih]
    rfl

end Registry

/-! ## What reports have no influence on -/

/-- Plans agree in all that is not reported. -/
structure Plan.Agree (p q : Plan) : Prop where
  classes : p.classes = q.classes
  callSites : p.callSites = q.callSites
  assignments : p.assignments = q.assignments
  deduplicated : p.deduplicated = q.deduplicated
  stats : p.stats = q.stats

/-- Answers agree: they are the same reference or refusal, or plans that
agree. -/
inductive Answer.Agree : Answer → Answer → Prop where
  | reference (x : Reference) : Agree (.reference x) (.reference x)
  | refusal (e : Refusal) : Agree (.refusal e) (.refusal e)
  | plan {p q : Plan} (h : p.Agree q) : Agree (.plan p) (.plan q)

/-- Registries agree in where they stand and what they know, and in their
plans. -/
structure Registry.Agree {a : Arena} (r r' : Registry a) : Prop where
  phase : r.phase = r'.phase
  canonical? : ∀ l, r.canonical? l = r'.canonical? l
  buckets : r.buckets = r'.buckets
  ordinals : r.ordinals = r'.ordinals
  draft : r.draft.Agree r'.draft

/-- Plans agree that are the same without reports. -/
theorem Plan.agree_of_silent_eq {p q : Plan} (h : p.silent = q.silent) : p.Agree q where
  classes := congrArg (·.classes) h
  callSites := congrArg (·.callSites) h
  assignments := congrArg (·.assignments) h
  deduplicated := congrArg (·.deduplicated) h
  stats := congrArg (·.stats) h

/-- So do answers. -/
theorem Answer.agree_of_silent_eq {x y : Answer} (h : x.silent = y.silent) : x.Agree y := by
  cases x with
  | reference x =>
    cases y with
    | reference y =>
      obtain rfl := Answer.reference.inj h
      exact .reference x
    | _ => cases h
  | refusal e =>
    cases y with
    | refusal f =>
      obtain rfl := Answer.refusal.inj h
      exact .refusal e
    | _ => cases h
  | plan p =>
    cases y with
    | plan q => exact .plan (Plan.agree_of_silent_eq (Answer.plan.inj h))
    | _ => cases h

/-- And so do registries. -/
theorem Registry.agree_of_silent_eq {a : Arena} {r r' : Registry a} (h : r.silent = r'.silent) :
    r.Agree r' where
  phase := congrArg (·.phase) h
  canonical? l := congrArg (·.canonical? l) h
  buckets := congrArg (·.buckets) h
  ordinals := congrArg (·.ordinals) h
  draft := Plan.agree_of_silent_eq (congrArg (·.draft) h)

/-! ## What is noted -/

/-- **The note on a call site**, if one is to be made: of the method that is
generated, if the lambda is the canonical one of its class, and otherwise of
the lambda and the method that it uses. -/
def Plan.note? (p : Plan) (reports : Reports) (site : CallSite) : Option Note := do
  let c ← p.class? site.classId
  if c.canonical = site.lambda then
    if reports.methods then some (.implemented site.lambda c.method) else none
  else
    if reports.folded then some (.folded site.lambda c.canonical c.method) else none

namespace Registry

variable {a : Arena} {r : Registry a} {g : Ledger}

/-- **The notes of a registry are those on its call sites**, in order. -/
theorem Keeps.notes_eq (h : r.Keeps g) :
    r.draft.notes.toList =
      r.draft.callSites.toList.filterMap (r.draft.note? r.options.reports) := by
  have hnotes : r.draft.notes = (g.entries.filterMap (g.note? a r.options)).toArray :=
    congrArg Plan.notes h.plan
  rw [hnotes, h.callSites_eq, List.filterMap_map]
  refine List.filterMap_congr fun e he => ?_
  have hclass : r.draft.class? (g.site a e).classId = some (g.sharingClass a r.options e.2) :=
    h.class?_eq_some_iff.2 ⟨e.2, h.kept.mem_classes he, rfl, rfl⟩
  show g.note? a r.options e = (r.draft.class? (g.site a e).classId).bind _
  rw [hclass]
  rfl

/-- So are those of every plan that is handed out. -/
theorem notes_of_mem_run {o : Options} {requests : List Request} {p : Plan}
    (hp : .plan p ∈ ((new a o).run requests).1) :
    p.notes.toList = p.callSites.toList.filterMap (p.note? o.reports) := by
  have hreachable : Reachable o ((new a o).run requests).2 := Reachable.new.run requests
  have hnotes := ((Keeps.new a o).run requests).notes_eq
  rwa [hreachable.options_eq, draft_of_mem_run hp] at hnotes

end Registry

open Registry

/-- **Reports have no influence.** Registries that are told the same, except
for the reports they are to make, answer the same requests with the same
references and refusals, and with plans that agree in all that is not
reported. After the requests they stand in the same phase, and agree in all
they know. And the notes of every plan that is handed out are those on its
call sites, in order, of the kinds that were asked for. -/
theorem answers_agree (a : Arena) (o : Options) (reports : Reports) (requests : List Request) :
    List.Forall₂ Answer.Agree ((new a o).run requests).1
      ((new a { o with reports }).run requests).1 ∧
    ((new a o).run requests).2.Agree ((new a { o with reports }).run requests).2 ∧
    (∀ p, .plan p ∈ ((new a o).run requests).1 →
      p.notes.toList = p.callSites.toList.filterMap (p.note? o.reports)) ∧
    ∀ p, .plan p ∈ ((new a { o with reports }).run requests).1 →
      p.notes.toList = p.callSites.toList.filterMap (p.note? reports) := by
  have hsilent := run_silent (r := new a o) requests
  have hsilent' := run_silent (r := new a { o with reports }) requests
  have hsame : (new a { o with reports }).silent = (new a o).silent := by
    rw [silent_new, silent_new]
    rfl
  rw [hsame, hsilent] at hsilent'
  obtain ⟨hanswers, hend⟩ := Prod.mk.inj hsilent'
  refine ⟨?_, agree_of_silent_eq hend, fun p => notes_of_mem_run, fun p => notes_of_mem_run⟩
  rw [← List.forall₂_eq_eq_eq, List.forall₂_map_left_iff, List.forall₂_map_right_iff] at hanswers
  exact hanswers.imp fun _ _ => Answer.agree_of_silent_eq

/-- With all reports there are two notes on the first two of the five lambdas,
and without any there are none; but the lambdas are where they were. -/
theorem answers_agree_of_fiveLambdas :
    let o : Options := ⟨true, .positional, 2, ⟨true, true, true⟩⟩
    let requests : List Request := [.submit ⟨0⟩, .submit ⟨9⟩, .submit ⟨1⟩, .finalize]
    let r := ((new Arena.fiveLambdas o).run requests).2
    let r' := ((new Arena.fiveLambdas { o with reports := {} }).run requests).2
    .plan r.draft ∈ ((new Arena.fiveLambdas o).run requests).1 ∧
      r.draft.notes.toList = r.draft.callSites.toList.filterMap (r.draft.note? o.reports) ∧
      r.draft.notes = #[.implemented ⟨0⟩ ⟨.empty, 0⟩, .folded ⟨1⟩ ⟨0⟩ ⟨.empty, 0⟩] ∧
      r'.draft.notes = #[] ∧ r.Agree r' := by
  intro o requests r r'
  obtain ⟨-, hagree, hnotes, -⟩ := answers_agree Arena.fiveLambdas o {} requests
  have hp : .plan r.draft ∈ ((new Arena.fiveLambdas o).run requests).1 := by
    let before := ((new Arena.fiveLambdas o).run [.submit ⟨0⟩, .submit ⟨9⟩, .submit ⟨1⟩]).2
    have hphase : before.phase ≠ .finalized := by decide +kernel
    show Answer.plan before.finalize.2.draft ∈ [_, _, _, Answer.ofPlan before.finalize.1]
    rw [finalize, if_neg hphase]
    exact .tail _ (.tail _ (.tail _ (.head _)))
  exact ⟨hp, hnotes _ hp, by decide +kernel, by decide +kernel, hagree⟩

end LambdaSharing
