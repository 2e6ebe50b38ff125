import LambdaSharing.Proofs.Sharing.Lifecycle
import LambdaSharing.Proofs.Sharing.Representation

/-!
# Whole units

The list of lambdas of a unit comes from a resolver that knows nothing of
sharing: it may name a lambda twice, or one that cannot be read, at any place
between the others. All of these are submitted. The plan must not show it, and
it could in many ways, as numbers of classes, ordinals, counts and records of
comparisons all depend on what was submitted before.

That it does not (`CompilationUnit.deduplicate_eq`) comes down to one notion.
A lambda is *settled* in a registry (`Registry.Settled`) if it is known there
or has no fingerprint. To submit a settled lambda changes nothing, a lambda is
settled once it was submitted, and it stays so whatever else is submitted. So
settled lambdas may be left out of a list wherever they stand, and this is
what tidying a list comes to: lambdas without a fingerprint are settled from
the start, and repetitions from the first occurrence on.
-/

namespace LambdaSharing

/-- Why a lambda has no fingerprint under a limit, if it has none. -/
def Arena.fault? (a : Arena) (limit : Nat) (l : LambdaId) : Option Fault :=
  match a.lambdaHash limit l with
  | .ok _ => none
  | .error fault => some fault

namespace CompilationUnit

/-- What is wrong with the lambdas of a unit, in order, and as often as they
are listed. -/
def faults (u : CompilationUnit) (limit : Nat) : List Fault :=
  u.lambdas.filterMap (u.arena.fault? limit)

/-- The unit with every lambda that has a fingerprint listed once, where it is
listed first, and no others. -/
def tidy (u : CompilationUnit) (limit : Nat) : CompilationUnit :=
  { u with lambdas := (u.lambdas.filter fun l => (u.arena.fault? limit l).isNone).eraseDups }

end CompilationUnit

namespace Arena

variable {a : Arena} {limit : Nat} {l : LambdaId} {fault : Fault}

theorem fault?_eq_some_iff :
    a.fault? limit l = some fault ↔ a.lambdaHash limit l = .error fault := by
  unfold fault?
  cases a.lambdaHash limit l <;> simp

theorem fault?_eq_none_iff :
    a.fault? limit l = none ↔ ∃ hash, a.lambdaHash limit l = .ok hash := by
  unfold fault?
  cases a.lambdaHash limit l <;> simp

end Arena

namespace Registry

variable {a : Arena} {r : Registry a} {o : Options} {l m : LambdaId} {ls : List LambdaId}

/-! ## Settled lambdas -/

/-- **A lambda is settled** if the registry knows it, or has no use for it. -/
def Settled (r : Registry a) (l : LambdaId) : Prop :=
  (∃ x, r.canonical? l = some x) ∨ ∃ fault, a.lambdaHash r.options.maxDepth l = .error fault

namespace Settled

/-- **To submit a settled lambda changes nothing.** -/
theorem submit_snd (h : r.Settled l) : (r.submit l).2 = r := by
  rcases submit_cases r l with ⟨refusal, heq⟩ | ⟨x, -, heq⟩ | ⟨e, -, hnew, he, -⟩
  · rw [heq]
  · rw [heq]
  · -- a lambda that is accepted is not known before, and has a fingerprint
    rcases h with ⟨x, hx⟩ | ⟨fault, hfault⟩
    · rw [hnew] at hx
      cases hx
    · rw [examine_of_lambdaHash_error hfault] at he
      cases he

/-- A settled lambda stays settled. -/
theorem submit (h : r.Settled l) (hr : r.Coherent) (m : LambdaId) : (r.submit m).2.Settled l := by
  rcases h with ⟨x, hx⟩ | hfault
  · exact .inl ⟨x, hr.canonical?_submit hx m⟩
  · refine .inr ?_
    rwa [options_submit]

end Settled

/-- **A lambda that was submitted is settled.** -/
theorem Coherent.settled_submit (h : r.Coherent) (hphase : r.phase ≠ .finalized) (l : LambdaId) :
    (r.submit l).2.Settled l := by
  cases hx : (r.submit l).1 with
  | ok x => exact .inl ⟨x, h.canonical?_of_submit hx⟩
  | error refusal =>
    obtain ⟨fault, hfault, -⟩ := (h.submit_refused_iff hphase).1 hx
    refine .inr ⟨fault, ?_⟩
    rwa [options_submit]

/-! ## Lists of submissions -/

theorem submitAll_cons_snd : (r.submitAll (l :: ls)).2 = ((r.submit l).2.submitAll ls).2 := by
  rw [submitAll_snd, submitAll_snd]
  rfl

/-- No submissions to a new registry end its life. -/
theorem phase_submitAll (a : Arena) (o : Options) (ls : List LambdaId) :
    ((new a o).submitAll ls).2.phase ≠ .finalized := by
  rw [submitAll_snd]
  exact Reachable.new.phase_run_ne_finalized Phase.noConfusion (by simp)

/-- After any submissions to a new registry there is a plan to hand out. -/
theorem finalize_submitAll (a : Arena) (o : Options) (ls : List LambdaId) :
    ((new a o).submitAll ls).2.finalize.1 = .ok ((new a o).submitAll ls).2.draft := by
  rw [finalize, if_neg (phase_submitAll a o ls)]

/-- **Settled lambdas may be left out.** -/
theorem Coherent.submitAll_filter (h : r.Coherent) {p : LambdaId → Bool}
    (hsettled : ∀ l ∈ ls, p l = false → r.Settled l) :
    (r.submitAll (ls.filter p)).2 = (r.submitAll ls).2 := by
  induction ls generalizing r with
  | nil => rfl
  | cons l ls ih =>
    have hrest : (r.submit l).2.Coherent ∧ ∀ m ∈ ls, p m = false → (r.submit l).2.Settled m :=
      ⟨h.submit l, fun m hm hpm => (hsettled m (List.mem_cons_of_mem l hm) hpm).submit h l⟩
    rw [submitAll_cons_snd, ← ih hrest.1 hrest.2]
    cases hpl : p l with
    | true => rw [List.filter_cons_of_pos hpl, submitAll_cons_snd]
    | false =>
      rw [List.filter_cons_of_neg (by rw [hpl]; exact Bool.false_ne_true),
        (hsettled l List.mem_cons_self hpl).submit_snd]

/-- **Repetitions may be left out.** -/
theorem Coherent.submitAll_eraseDups (h : r.Coherent) (hphase : r.phase ≠ .finalized)
    (ls : List LambdaId) : (r.submitAll ls.eraseDups).2 = (r.submitAll ls).2 := by
  -- the induction is on the length, as all later occurrences of the first lambda go at once
  induction hlength : ls.length using Nat.strongRecOn generalizing ls r with
  | ind n ih =>
    cases ls with
    | nil => rfl
    | cons l ls =>
      have hlt : (ls.filter fun m => !m == l).length < n := by
        rw [← hlength, List.length_cons]
        exact Nat.lt_succ_of_le (List.length_filter_le _ _)
      have hsettled : ∀ m ∈ ls, (!m == l) = false → (r.submit l).2.Settled m := by
        intro m _ hm
        rw [Bool.not_eq_false', beq_iff_eq] at hm
        rw [hm]
        exact h.settled_submit hphase l
      rw [List.eraseDups_cons, submitAll_cons_snd, submitAll_cons_snd,
        ih _ hlt (h.submit l) (phase_submit hphase) _ rfl, (h.submit l).submitAll_filter hsettled]

/-- What a list of submissions is refused with is what is wrong with its
lambdas. -/
theorem Reachable.submitAll_fst (h : Reachable o r) (hphase : r.phase ≠ .finalized)
    (ls : List LambdaId) :
    (r.submitAll ls).1 = (ls.filterMap (a.fault? o.maxDepth)).map .faulty := by
  induction ls generalizing r with
  | nil => rfl
  | cons l ls ih =>
    have hrest := ih (h.submit l) (phase_submit hphase)
    have hrefused := @Coherent.submit_refused_iff _ _ l h.coherent hphase
    rw [h.options_eq] at hrefused
    rw [submitAll]
    rcases hsubmit : r.submit l with ⟨refusal | x, r'⟩
    · rw [hsubmit] at hrest hrefused
      obtain ⟨fault, hfault, rfl⟩ := hrefused.1 rfl
      rw [List.filterMap_cons_some (Arena.fault?_eq_some_iff.2 hfault), List.map_cons, ← hrest]
    · rw [hsubmit] at hrest hrefused
      have hfault : a.fault? o.maxDepth l = none := by
        refine Option.eq_none_iff_forall_ne_some.2 fun fault hfault => ?_
        have hrefusal := hrefused.2 ⟨fault, Arena.fault?_eq_some_iff.1 hfault, rfl⟩
        cases hrefusal
      rw [List.filterMap_cons_none hfault, ← hrest]

/-- The lambdas that a list of submissions accepts are those that have a
fingerprint. -/
theorem Reachable.acceptances_run (h : Reachable o r) (hphase : r.phase ≠ .finalized)
    (ls : List LambdaId) :
    acceptances (ls.map .submit) (r.run (ls.map .submit)).1 =
      ls.filter fun l => (a.fault? o.maxDepth l).isNone := by
  induction ls generalizing r with
  | nil => rfl
  | cons l ls ih =>
    have haccepted (m : LambdaId) := @Coherent.accepted?_eq_some_iff _ _ m l h.coherent hphase
    rw [List.map_cons, run_cons, acceptances_cons, ih (h.answer (.submit l)) (phase_submit hphase)]
    cases hfault : a.fault? o.maxDepth l with
    | none =>
      have hhash := Arena.fault?_eq_none_iff.1 hfault
      rw [← h.options_eq] at hhash
      rw [List.filter_cons_of_pos (by rw [hfault]; rfl), (haccepted l).2 ⟨rfl, hhash⟩]
      rfl
    | some fault =>
      have hnone : (Request.submit l).accepted? (r.answer (.submit l)).1 = none := by
        refine Option.eq_none_iff_forall_ne_some.2 fun m hm => ?_
        obtain ⟨rfl, hhash⟩ := (haccepted m).1 hm
        rw [h.options_eq, ← Arena.fault?_eq_none_iff, hfault] at hhash
        cases hhash
      rw [List.filter_cons_of_neg (by rw [hfault]; exact Bool.false_ne_true), hnone]
      rfl

end Registry

/-! ## Units -/

namespace CompilationUnit

open Registry

/-- The plan of a unit is what its registry has come to when all lambdas were
submitted. -/
theorem plan_deduplicate (u : CompilationUnit) (o : Options) :
    (u.deduplicate o).plan = ((new u.arena o).submitAll u.lambdas).2.draft := by
  show (((new u.arena o).submitAll u.lambdas).2.finalize.1.toOption).getD {} = _
  rw [finalize_submitAll]
  rfl

/-- **The plan of a unit does not show what was listed in vain.** The failures
are the faults of the lambdas that have no fingerprint, in the order of the
list and as often as they are listed; and the whole plan is that of the unit
in which these lambdas and all repetitions are not listed. It covers exactly
the lambdas that are then left. -/
theorem deduplicate_eq (u : CompilationUnit) (o : Options) :
    (u.deduplicate o).failures = (u.faults o.maxDepth).map .faulty ∧
      (u.deduplicate o).plan = ((u.tidy o.maxDepth).deduplicate o).plan ∧
      (u.deduplicate o).plan.callSites.toList.map (·.lambda) = (u.tidy o.maxDepth).lambdas := by
  have hnew : Reachable o (new u.arena o) := .new
  have hphase : (new u.arena o).phase ≠ .finalized := Phase.noConfusion
  refine ⟨hnew.submitAll_fst hphase u.lambdas, ?_, ?_⟩
  · have hsettled : ∀ l ∈ u.lambdas, (u.arena.fault? o.maxDepth l).isNone = false →
        (new u.arena o).Settled l := by
      intro l _ hl
      obtain ⟨fault, hfault⟩ := Option.isSome_iff_exists.1 (Option.isNone_eq_false_iff.1 hl)
      exact .inr ⟨fault, Arena.fault?_eq_some_iff.1 hfault⟩
    rw [plan_deduplicate, plan_deduplicate]
    show _ = ((new u.arena o).submitAll (u.tidy o.maxDepth).lambdas).2.draft
    rw [tidy, hnew.coherent.submitAll_eraseDups hphase, hnew.coherent.submitAll_filter hsettled]
  · have hkeeps := (Keeps.new u.arena o).run (u.lambdas.map .submit)
    have hlambdas := Ledger.lambdas_recordAll (g := {}) [] rfl (u.lambdas.map .submit)
      ((new u.arena o).run (u.lambdas.map .submit)).1
    rw [List.nil_append, hnew.acceptances_run hphase] at hlambdas
    rw [plan_deduplicate, submitAll_snd, hkeeps.called, ← hlambdas, tidy]

end CompilationUnit

end LambdaSharing
