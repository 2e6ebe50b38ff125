import LambdaSharing.Proofs.Sharing.History
import LambdaSharing.Proofs.Sharing.Units
import Mathlib.Data.List.Induction
import Mathlib.Data.List.TakeWhile

/-!
# What was compared with what

A run can be asked to report its comparisons. Whoever reads the report wants
to know why a lambda ended up where it did, and whether the fingerprints are
any good, and relies on nothing being missing and nothing being there that was
not done. But the records come from a loop that may stop early, inside an
examination that may still fail, for a lambda that may have been accepted long
ago. Nor can the counts be checked by running the program: lambdas that have
one fingerprint and differ are hardly ever met, unless it is in the variables
that they capture.

Yet all of it can be foretold from the classes that there are when a lambda is
first submitted (`Plan.comparisons`). The lambda is compared with the canonical
lambdas of those classes that have its fingerprint, in order of creation, up to
the first that it is equivalent to. The report is what this comes to for the
accepted lambdas, one after the other, and the counts are those of the report
(`Registry.traces_of_submissions`). So it shows nothing of submissions that
were refused or repeated.
-/

namespace LambdaSharing

/-! ## Up to the first -/

section UpToFirst

variable {α : Type} {p : α → Bool} {x : α} {xs : List α}

/-- The entries of a list up to the first that passes a test, and this one. -/
def upToFirst (p : α → Bool) (xs : List α) : List α :=
  (xs.takeWhile fun x => !p x) ++ (xs.find? p).toList

/-- Nothing comes after an entry that passes, and all the rest after one that
does not. -/
theorem upToFirst_cons :
    upToFirst p (x :: xs) = if p x then [x] else x :: upToFirst p xs := by
  unfold upToFirst
  by_cases h : p x = true
  · rw [List.takeWhile_cons_of_neg (by simp [h]), List.find?_cons_of_pos h, if_pos h]
    rfl
  · rw [List.takeWhile_cons_of_pos (by simp [h]), List.find?_cons_of_neg h, if_neg h]
    rfl

end UpToFirst

/-! ## What is to be compared -/

/-- What a record says: which lambda was compared with which, and what the
comparison came to. -/
def Trace.entry (t : Trace) : LambdaId × LambdaId × Except Fault Outcome :=
  (t.candidate, t.against, .ok t.outcome)

namespace Plan

variable (p : Plan) (a : Arena) (o : Options) (l : LambdaId)

/-- The classes that have the fingerprint of a lambda, in order of
creation. -/
def candidates : List SharingClass :=
  p.classes.toList.filter fun c => a.lambdaHash o.maxDepth l = .ok c.hash

/-- **The classes that a lambda is compared with**, up to the first whose
canonical lambda it is equivalent to. -/
def searched : List SharingClass :=
  upToFirst (fun c => a.compareLambdas o.policy o.maxDepth l c.canonical = .ok .equivalent)
    (p.candidates a o l)

/-- **The comparisons that are to be made for a lambda**, as they are
recorded. -/
def comparisons : List (LambdaId × LambdaId × Except Fault Outcome) :=
  (p.searched a o l).map fun c =>
    (l, c.canonical, a.compareLambdas o.policy o.maxDepth l c.canonical)

end Plan

/-! ## Searches that record -/

namespace Search

variable {s t : Search} {reports : Reports}

/-- **The counts of a search are those of its records.** -/
structure Counted (s : Search) : Prop where
  comparisons : s.comparisons = s.traces.toList.length
  collisions : s.collisions = s.traces.toList.countP fun t => !t.outcome.isEquivalent

/-- A comparison that is reported is recorded. -/
theorem traces_single (h : reports.comparisons = true) (trace : Trace) :
    (single reports trace).traces = #[trace] :=
  if_pos h

/-- It is counted as one, and as a collision if it found a divergence. -/
theorem Counted.single (h : reports.comparisons = true) (trace : Trace) :
    (single reports trace).Counted := by
  refine ⟨by rw [traces_single h]; rfl, ?_⟩
  rw [traces_single h]
  show (if trace.outcome.isEquivalent then 0 else 1) = [trace].countP _
  rw [List.countP_singleton]
  cases trace.outcome.isEquivalent <;> rfl

theorem Counted.followedBy (hs : s.Counted) (ht : t.Counted) : (s.followedBy t).Counted where
  comparisons := by
    show s.comparisons + t.comparisons = (s.traces ++ t.traces).toList.length
    rw [hs.comparisons, ht.comparisons, Array.toList_append, List.length_append]
  collisions := by
    show s.collisions + t.collisions = (s.traces ++ t.traces).toList.countP _
    rw [hs.collisions, ht.collisions, Array.toList_append, List.countP_append]

end Search

namespace Registry

variable {a : Arena} {r : Registry a} {g : Ledger} {o : Options} {l : LambdaId} {e : Examination}

/-- A search counts what it records, if it records anything. -/
theorem counted_searchAmong (hreported : r.options.reports.comparisons = true)
    {ids : List ClassId} {s : Search} (h : r.searchAmong l ids = .ok s) : s.Counted := by
  induction ids generalizing s with
  | nil =>
    obtain rfl := Except.ok.inj h
    exact ⟨rfl, rfl⟩
  | cons id ids ih =>
    rcases searchAmong_cons_eq_ok_iff.1 h with ⟨-, h⟩ | ⟨c, outcome, -, -, hcases⟩
    · exact ih h
    · have hsingle := Search.Counted.single hreported ⟨l, c.canonical, outcome⟩
      rcases hcases with ⟨-, rfl⟩ | ⟨-, further, hfurther, rfl⟩
      · exact ⟨hsingle.comparisons, hsingle.collisions⟩
      · exact hsingle.followedBy (ih hfurther)

/-- So does an examination. -/
theorem counted_examine (hreported : r.options.reports.comparisons = true)
    (he : r.examine l = .ok e) : e.search.Counted := by
  obtain ⟨_, -, hsearch⟩ := exists_searchAmong_of_examine he
  exact counted_searchAmong hreported hsearch

/-! ## What an examination compares -/

/-- A search records its comparisons up to the first class that suits. -/
theorem traces_searchAmong (hreported : r.options.reports.comparisons = true)
    {cs : List SharingClass} {s : Search} (hcs : ∀ c ∈ cs, r.draft.class? c.id = some c)
    (h : r.searchAmong l (cs.map (·.id)) = .ok s) :
    s.traces.toList.map Trace.entry =
      (upToFirst (fun c => a.compareLambdas r.options.policy r.options.maxDepth l c.canonical =
        .ok .equivalent) cs).map fun c =>
          (l, c.canonical, a.compareLambdas r.options.policy r.options.maxDepth l c.canonical) := by
  induction cs generalizing s with
  | nil =>
    rw [← Except.ok.inj h]
    rfl
  | cons c cs ih =>
    obtain ⟨hc, hcs⟩ := List.forall_mem_cons.1 hcs
    rw [List.map_cons, searchAmong_cons_of_some hc] at h
    obtain ⟨outcome, houtcome, h⟩ := bind_eq_ok_iff.1 h
    rw [upToFirst_cons]
    have hsingle := Search.traces_single hreported ⟨l, c.canonical, outcome⟩
    cases outcome with
    | equivalent =>
      obtain rfl := Except.ok.inj h
      rw [if_pos (decide_eq_true houtcome), hsingle]
      show _ = [(l, c.canonical, a.compareLambdas _ _ l c.canonical)]
      rw [houtcome]
      rfl
    | diverged d =>
      obtain ⟨further, hfurther, rfl⟩ := map_eq_ok_iff.1 h
      rw [if_neg (by simp [houtcome]), List.map_cons, ← ih hcs hfurther, houtcome]
      show ((Search.single _ _).traces ++ further.traces).toList.map _ = _
      rw [hsingle, Array.toList_append]
      rfl

/-- **An examination makes the comparisons that are to be made.** -/
theorem Keeps.traces_examine (h : r.Keeps g) (hr : r.Coherent)
    (hshared : r.options.deduplicate = true) (hreported : r.options.reports.comparisons = true)
    (he : r.examine l = .ok e) :
    e.search.traces.toList.map Trace.entry = r.draft.comparisons a r.options l := by
  obtain ⟨-, hhash, hsearch⟩ := examine_eq_ok_iff.1 he
  have hcandidates : r.draft.candidates a r.options l =
      r.draft.classes.toList.filter fun c => c.hash = e.hash := by
    refine List.filter_congr fun c _ => ?_
    rw [hhash, decide_eq_decide, Except.ok.injEq, eq_comm]
  rw [if_pos hshared, h.bucketed hr, ← hcandidates] at hsearch
  refine traces_searchAmong hreported (fun c hc => ?_) hsearch
  obtain ⟨x, hx, rfl⟩ := h.mem_classes_iff.1 (Array.mem_toList_iff.1 (List.mem_filter.1 hc).1)
  exact h.class?_eq_some_iff.2 ⟨x, hx, rfl, rfl⟩

/-! ## What is recorded and counted -/

/-- Accepting a lambda records the comparisons that were made, behind those
that were recorded before. -/
theorem traces_accept :
    (r.accept l e).2.draft.traces.toList = r.draft.traces.toList ++ e.search.traces.toList := by
  have hcount : (r.accept l e).2.draft.traces = r.draft.traces ++ e.search.traces := by
    unfold accept
    cases e.search.found <;> rfl
  rw [hcount, Array.toList_append]

/-- **The counts of a registry are those of its records.** They have 64 bits,
which suffices because a search makes fewer comparisons than there are numbers
for classes. -/
structure Counts (r : Registry a) (g : Ledger) : Prop where
  comparisons : r.draft.stats.comparisons = UInt64.ofNat r.draft.traces.toList.length
  collisions : r.draft.stats.collisions =
    UInt64.ofNat (r.draft.traces.toList.countP fun t => !t.outcome.isEquivalent)
  bounded : r.draft.traces.toList.length ≤ g.entries.length * (UInt32.size - 1)

namespace Counts

/-- Nothing was recorded in the beginning. -/
theorem new (a : Arena) (o : Options) : (Registry.new a o).Counts {} :=
  ⟨rfl, rfl, Nat.zero_le _⟩

/-- What is recorded is counted. -/
theorem accept {x : Reference} (h : r.Counts g) (hcounted : e.search.Counted)
    (hlt : e.search.comparisons < UInt32.size) : (r.accept l e).2.Counts (g.add l x) := by
  have hstats : (r.accept l e).2.draft.stats.comparisons =
        r.draft.stats.comparisons + UInt64.ofNat e.search.comparisons ∧
      (r.accept l e).2.draft.stats.collisions =
        r.draft.stats.collisions + UInt64.ofNat e.search.collisions := by
    unfold Registry.accept
    cases e.search.found <;> exact ⟨rfl, rfl⟩
  rw [hcounted.comparisons, hcounted.collisions] at hstats
  refine ⟨?_, ?_, ?_⟩
  · rw [hstats.1, h.comparisons, traces_accept, List.length_append, UInt64.ofNat_add]
  · rw [hstats.2, h.collisions, traces_accept, List.countP_append, UInt64.ofNat_add]
  · have hbounded := h.bounded
    rw [hcounted.comparisons] at hlt
    rw [traces_accept, List.length_append, Ledger.length_add, Nat.succ_mul]
    omega

/-- The counts are not cut off. -/
theorem toNat (h : r.Counts g) (hkept : g.Kept) :
    r.draft.stats.comparisons.toNat = r.draft.traces.size ∧
      r.draft.stats.collisions.toNat =
        r.draft.traces.toList.countP fun t => !t.outcome.isEquivalent := by
  rw [h.comparisons, h.collisions, hkept.toNat_ofNat_of_le h.bounded,
    hkept.toNat_ofNat_of_le (Nat.le_trans List.countP_le_length h.bounded)]
  exact ⟨Array.length_toList, rfl⟩

end Counts

/-! ## Lists of submissions -/

variable {ls : List LambdaId}

/-- There is a call site for each lambda that has a fingerprint, in the order
in which they were first submitted. -/
theorem called_submitAll (a : Arena) (o : Options) (ls : List LambdaId) :
    ((new a o).submitAll ls).2.draft.callSites.toList.map (·.lambda) =
      (CompilationUnit.tidy ⟨a, ls⟩ o.maxDepth).lambdas := by
  have hkeeps := (Keeps.new a o).run (ls.map .submit)
  have hlambdas := Ledger.lambdas_recordAll (g := {}) [] rfl (ls.map .submit)
    ((new a o).run (ls.map .submit)).1
  rw [List.nil_append, Reachable.new.acceptances_run Phase.noConfusion] at hlambdas
  rw [submitAll_snd, hkeeps.called, ← hlambdas, CompilationUnit.tidy]

theorem mem_called_submitAll_iff :
    l ∈ ((new a o).submitAll ls).2.draft.callSites.toList.map (·.lambda) ↔
      l ∈ ls ∧ ∃ hash, a.lambdaHash o.maxDepth l = .ok hash := by
  rw [called_submitAll]
  show l ∈ (ls.filter _).eraseDups ↔ _
  rw [List.mem_eraseDups, List.mem_filter, Option.isNone_iff_eq_none, Arena.fault?_eq_none_iff]

/-- The registry as it is when a lambda of a list is submitted for the first
time. -/
def before (a : Arena) (o : Options) (ls : List LambdaId) (l : LambdaId) : Registry a :=
  ((new a o).submitAll (ls.takeWhile (· ≠ l))).2

/-- What is submitted later does not matter. -/
theorem before_concat_of_mem {m : LambdaId} (h : l ∈ ls) :
    before a o (ls ++ [m]) l = before a o ls l := by
  have hstops : ¬ (ls.takeWhile (· ≠ l)).length = ls.length := by
    intro hlength
    have hall := List.takeWhile_eq_self_iff.1 ((List.takeWhile_prefix _).eq_of_length hlength)
    exact of_decide_eq_true (hall l h) rfl
  rw [before, List.takeWhile_append, if_neg hstops, before]

theorem before_concat_self (h : l ∉ ls) :
    before a o (ls ++ [l]) l = ((new a o).submitAll ls).2 := by
  have hall : ∀ m ∈ ls, decide (m ≠ l) = true := fun m hm =>
    decide_eq_true fun heq => h (heq ▸ hm)
  rw [before, List.takeWhile_append_of_pos hall, List.takeWhile_cons_of_neg (by simp),
    List.append_nil]

/-- **What one submission records**: nothing if the lambda is refused or known,
and otherwise the comparisons that are to be made for it. -/
theorem traces_submit (h : r.Keeps g) (hcounts : r.Counts g) (hr : Reachable o r)
    (hshared : o.deduplicate = true) (hreported : o.reports.comparisons = true) (l : LambdaId) :
    (r.submit l).2 = r ∨
      l ∉ g.lambdas ∧ (∃ hash, a.lambdaHash o.maxDepth l = .ok hash) ∧
        (∃ x, (r.submit l).2.Keeps (g.add l x) ∧ (r.submit l).2.Counts (g.add l x)) ∧
        (r.submit l).2.draft.traces.toList.map Trace.entry =
          r.draft.traces.toList.map Trace.entry ++ r.draft.comparisons a o l := by
  have hoptions := hr.options_eq
  rcases submit_cases r l with ⟨refusal, hsubmit⟩ | ⟨x, -, hsubmit⟩ | ⟨e, -, hnew, he, hsubmit⟩
  · exact .inl (congrArg Prod.snd hsubmit)
  · exact .inl (congrArg Prod.snd hsubmit)
  · have hnew := h.notMem_lambdas hnew
    have hhash := (examine_eq_ok_iff.1 he).2.1
    rw [← hoptions] at hshared hreported
    have htraces := h.traces_examine hr.coherent hshared hreported he
    have hcounts : (r.accept l e).2.Counts (g.add l (r.accept l e).1) :=
      hcounts.accept (counted_examine hreported he) (h.comparisons_lt hnew he)
    rw [hoptions] at hhash htraces
    rw [hsubmit]
    refine .inr ⟨hnew, ⟨e.hash, hhash⟩, ⟨_, h.accept hnew he, hcounts⟩, ?_⟩
    rw [traces_accept, List.map_append, htraces]

/-- **The records of a list of submissions** are the comparisons that are to be
made for the lambdas with a call site, one after the other, and are counted. -/
theorem traces_submitAll (hshared : o.deduplicate = true)
    (hreported : o.reports.comparisons = true) (ls : List LambdaId) :
    ∃ g, ((new a o).submitAll ls).2.Keeps g ∧ ((new a o).submitAll ls).2.Counts g ∧
      ((new a o).submitAll ls).2.draft.traces.toList.map Trace.entry =
        g.lambdas.flatMap fun l => (before a o ls l).draft.comparisons a o l := by
  induction ls using List.reverseRecOn with
  | nil => exact ⟨{}, .new a o, .new a o, rfl⟩
  | append_singleton ls l ih =>
    obtain ⟨g, hkeeps, hcounts, htraces⟩ := ih
    have hmem {m : LambdaId} : m ∈ g.lambdas ↔
        m ∈ ls ∧ ∃ hash, a.lambdaHash o.maxDepth m = .ok hash := by
      rw [← hkeeps.called, mem_called_submitAll_iff]
    -- for the lambdas that have a call site already, nothing has changed
    have hbefore : (g.lambdas.flatMap fun m => (before a o (ls ++ [l]) m).draft.comparisons a o m) =
        g.lambdas.flatMap fun m => (before a o ls m).draft.comparisons a o m := by
      refine List.flatMap_congr fun m hm => ?_
      rw [before_concat_of_mem (hmem.1 hm).1]
    rw [submitAll_concat_snd]
    rcases traces_submit hkeeps hcounts (Reachable.new.submissions ls) hshared hreported l with
      hsame | ⟨hnew, hhash, ⟨x, hkeeps', hcounts'⟩, htraces'⟩
    · rw [hsame]
      exact ⟨g, hkeeps, hcounts, by rw [hbefore, htraces]⟩
    · have hfirst : l ∉ ls := fun hl => hnew (hmem.2 ⟨hl, hhash⟩)
      refine ⟨_, hkeeps', hcounts', ?_⟩
      rw [htraces', htraces, Ledger.lambdas_add, List.flatMap_append, hbefore,
        List.flatMap_singleton, before_concat_self hfirst]

/-- **The report of comparisons shows what was compared, and nothing else.**
Whatever is submitted, in the plan there is a call site for each lambda that
has a fingerprint, in the order in which they were first submitted; and the
records are those of these lambdas, one after the other. When a lambda was
submitted for the first time, it was compared with the canonical lambdas of
the classes that were there and had its fingerprint, in order of creation, up
to the first that it is equivalent to. What is counted is how many records
there are, and how many of them are of a divergence. -/
theorem traces_of_submissions (a : Arena) {o : Options} (hshared : o.deduplicate = true)
    (hreported : o.reports.comparisons = true) (ls : List LambdaId) :
    ∃ p, ((new a o).submitAll ls).2.finalize.1 = .ok p ∧
      p.callSites.toList.map (·.lambda) = (CompilationUnit.tidy ⟨a, ls⟩ o.maxDepth).lambdas ∧
      p.traces.toList.map Trace.entry =
        ((CompilationUnit.tidy ⟨a, ls⟩ o.maxDepth).lambdas.flatMap fun l =>
          (before a o ls l).draft.comparisons a o l) ∧
      p.stats.comparisons.toNat = p.traces.size ∧
      p.stats.collisions.toNat = p.traces.toList.countP fun t => !t.outcome.isEquivalent := by
  obtain ⟨g, hkeeps, hcounts, htraces⟩ := traces_submitAll (a := a) hshared hreported ls
  obtain ⟨hcomparisons, hcollisions⟩ := hcounts.toNat hkeeps.kept
  have hcalled := called_submitAll a o ls
  rw [← hkeeps.called, hcalled] at htraces
  exact ⟨_, finalize_submitAll a o ls, hcalled, htraces, hcomparisons, hcollisions⟩

/-- By their variables, the second of the five lambdas differs from the first,
which has its fingerprint, while the fifth is equivalent to the fourth. Nothing
shows of the submissions that are refused and repeated in between. -/
theorem traces_of_fiveLambdas :
    let o : Options := ⟨true, .identity, 3, ⟨false, false, true⟩⟩
    let ls : List LambdaId := [⟨0⟩, ⟨9⟩, ⟨1⟩, ⟨0⟩, ⟨3⟩, ⟨4⟩]
    o.deduplicate = true ∧ o.reports.comparisons = true ∧
      ∃ p, ((new Arena.fiveLambdas o).submitAll ls).2.finalize.1 = .ok p ∧
        p.traces.toList.map (fun t => (t.candidate, t.against, t.outcome.isEquivalent)) =
          [(⟨1⟩, ⟨0⟩, false), (⟨4⟩, ⟨3⟩, true)] ∧
        p.stats.comparisons.toNat = 2 ∧ p.stats.collisions.toNat = 1 := by
  intro o ls
  obtain ⟨p, hp, -, -, hcomparisons, hcollisions⟩ :=
    traces_of_submissions Arena.fiveLambdas (o := o) rfl rfl ls
  have htraces :
      ((new Arena.fiveLambdas o).submitAll ls).2.draft.traces.toList.map
        (fun t => (t.candidate, t.against, t.outcome.isEquivalent)) =
          [(⟨1⟩, ⟨0⟩, false), (⟨4⟩, ⟨3⟩, true)] := by decide +kernel
  obtain rfl := Except.ok.inj ((finalize_submitAll _ o ls).symm.trans hp)
  refine ⟨rfl, rfl, _, hp, htraces, hcomparisons.trans ?_, hcollisions.trans ?_⟩
  · decide +kernel
  · decide +kernel

end Registry

end LambdaSharing
