import LambdaSharing.Proofs.Sharing.Coherence
import LambdaSharing.Sharing.CompilationUnit

/-!
# Sharing is a partition

What a registry answers to a sequence of submissions is the partition of the
accepted lambdas into classes of equivalent ones, each named by the one that
was accepted first. Lambdas may be submitted in any order and more than once,
and some may be refused on the way.

That the classes are right is known of every coherent registry. That the
first lambda of a class is the first one *in the order of the answers* is
about the run, and it is followed through the run as a property of what was
answered so far (`Registry.Recorded`): every answer names a lambda that was
answered before, or the lambda itself. As answers to equivalent lambdas are
equal, no equivalent one can have come before the one that they name.
-/

namespace LambdaSharing

namespace Registry

variable {a : Arena} {r r' : Registry a} {l : LambdaId} {x : Reference}
  {history : List (LambdaId × Reference)}

/-- What submissions are answered with, one after another, where they are not
refused. -/
def references (r : Registry a) : List LambdaId → List (LambdaId × Reference)
  | [] => []
  | l :: rest =>
    match r.submit l with
    | (.ok x, r) => (l, x) :: r.references rest
    | (.error _, r) => r.references rest

/-- A registry is still as it was answered so far. -/
structure Recorded (r : Registry a) (history : List (LambdaId × Reference)) : Prop where
  /-- What was answered is what the registry says. -/
  mem_iff : ∀ {l x}, (l, x) ∈ history ↔ r.canonical? l = some x
  /-- An answer names the lambda itself or one that was answered before. -/
  named : ∀ {before l x after}, history = before ++ (l, x) :: after →
    x.canonical = l ∨ x.canonical ∈ before.map Prod.fst

namespace Recorded

/-- Nothing was answered by a new registry. -/
theorem new (a : Arena) (o : Options) : (Registry.new a o).Recorded [] := by
  refine ⟨?_, ?_⟩
  · intro l x
    rw [canonical?_new]
    simp
  · intro before l x after heq
    simp at heq

/-- One more answer is recorded if the registry has changed accordingly. -/
theorem append (h : r.Recorded history)
    (hanswer : ∀ m y, r'.canonical? m = some y ↔ (m = l ∧ y = x) ∨ r.canonical? m = some y)
    (hnamed : x.canonical = l ∨ ∃ y, r.canonical? x.canonical = some y) :
    r'.Recorded (history ++ [(l, x)]) := by
  refine ⟨?_, ?_⟩
  · intro m y
    rw [List.mem_append, List.mem_singleton, Prod.mk.injEq, h.mem_iff, hanswer, or_comm]
  · intro before m y after heq
    -- the entry in question is the last one, or it was there before
    rcases List.eq_nil_or_concat after with rfl | ⟨after, last, rfl⟩
    · obtain ⟨rfl, hlast⟩ := List.append_inj' heq rfl
      obtain ⟨rfl, rfl⟩ := Prod.mk.inj (List.singleton_inj.1 hlast)
      refine hnamed.imp_right ?_
      rintro ⟨z, hz⟩
      exact List.mem_map.2 ⟨_, h.mem_iff.2 hz, rfl⟩
    · rw [List.concat_eq_append, ← List.cons_append, ← List.append_assoc] at heq
      exact h.named (List.append_inj' heq rfl).1

/-- What a submission is answered with is recorded. -/
theorem submit (h : r.Recorded history) (hr : r.Coherent) (hsubmit : r.submit l = (.ok x, r')) :
    r'.Recorded (history ++ [(l, x)]) := by
  rcases submit_cases r l with ⟨refusal, heq⟩ | ⟨y, hy, heq⟩ | ⟨e, -, hnew, he, heq⟩
  · rw [heq] at hsubmit
    cases hsubmit
  · rw [heq] at hsubmit
    obtain ⟨hanswer, rfl⟩ := Prod.mk.inj hsubmit
    obtain rfl := Except.ok.inj hanswer
    refine h.append ?_ (.inr ⟨y, hr.canonical?_canonical hy⟩)
    intro m z
    refine (or_iff_right_of_imp ?_).symm
    rintro ⟨rfl, rfl⟩
    exact hy
  · rw [heq] at hsubmit
    obtain ⟨hanswer, rfl⟩ := Prod.mk.inj hsubmit
    obtain rfl := Except.ok.inj hanswer
    have hnew := hr.canonical?_eq_none_iff.1 hnew
    exact h.append (fun m z => hr.canonical?_accept_iff hnew he) (hr.canonical_accept he)

/-- The lambda that an answer names is the first of those answered that are
alike the one submitted. -/
theorem find?_eq (h : r.Recorded history) (hr : r.Coherent) (hx : (l, x) ∈ history)
    {p : LambdaId → Bool} (hp : ∀ m, p m = true ↔ r.options.Alike a l m) :
    (history.map Prod.fst).find? p = some x.canonical := by
  have hcanonical : p x.canonical = true := (hp _).2 (hr.alike_canonical (h.mem_iff.1 hx))
  have hmem : x.canonical ∈ history.map Prod.fst :=
    List.mem_map.2 ⟨_, h.mem_iff.2 (hr.canonical?_canonical (h.mem_iff.1 hx)), rfl⟩
  cases hfound : (history.map Prod.fst).find? p with
  | none => exact absurd hcanonical (List.find?_eq_none.1 hfound _ hmem)
  | some m =>
    obtain ⟨hm, before, after, heq, hbefore⟩ := List.find?_eq_some_iff_append.1 hfound
    obtain ⟨history₁, rest, rfl, rfl, hrest⟩ := List.map_eq_append_iff.1 heq
    obtain ⟨⟨m, y⟩, history₂, rfl, rfl, -⟩ := List.map_eq_cons_iff.1 hrest
    have hy := h.mem_iff.1 (List.mem_append_right history₁ List.mem_cons_self)
    have hxy : x = y := (hr.eq_iff_alike (h.mem_iff.1 hx) hy).2 ((hp m).1 hm)
    -- the first one that is alike has the same answer, and what this names cannot come earlier
    rcases h.named rfl with hnamed | hnamed
    · rw [hxy, hnamed]
    · rw [← hxy] at hnamed
      have hfirst := hbefore _ hnamed
      rw [hcanonical] at hfirst
      cases hfirst

end Recorded

/-- **After a run, everything that was answered is recorded**, and the
registry is coherent. -/
theorem submitAll_recorded (hr : r.Coherent) (h : r.Recorded history) (ls : List LambdaId) :
    (r.submitAll ls).2.Coherent ∧ (r.submitAll ls).2.options = r.options ∧
      (r.submitAll ls).2.Recorded (history ++ r.references ls) := by
  induction ls generalizing r history with
  | nil =>
    rw [references, List.append_nil]
    exact ⟨hr, rfl, h⟩
  | cons l ls ih =>
    have hcoherent := hr.submit l
    have hoptions := options_submit r l
    rw [references, submitAll]
    rcases hsubmit : r.submit l with ⟨answer, r'⟩
    rw [hsubmit] at hcoherent hoptions
    cases answer with
    | error e =>
      obtain rfl := eq_of_submit_error hsubmit
      exact ih hr h
    | ok x =>
      obtain ⟨hcoherent', hoptions', hrecorded⟩ := ih hcoherent (h.submit hr hsubmit)
      rw [List.append_assoc, List.singleton_append] at hrecorded
      exact ⟨hcoherent', hoptions'.trans hoptions, hrecorded⟩

/-- Of the lambdas submitted, those with a fingerprint are answered. -/
theorem exists_mem_references (hr : r.Coherent) (hphase : r.phase ≠ .finalized)
    {ls : List LambdaId} {hash : UInt64} (hl : l ∈ ls)
    (hhash : a.lambdaHash r.options.maxDepth l = .ok hash) : ∃ x, (l, x) ∈ r.references ls := by
  induction ls generalizing r with
  | nil => cases hl
  | cons m ls ih =>
    have hcoherent := hr.submit m
    have hoptions := options_submit r m
    have hphase' := phase_submit (l := m) hphase
    have hok := fun h : l = m => hr.submit_isOk hphase (h ▸ hhash)
    rw [references]
    rcases hsubmit : r.submit m with ⟨answer, r'⟩
    rw [hsubmit] at hcoherent hoptions hphase' hok
    rw [← hoptions] at hhash
    cases answer with
    | error e =>
      rcases List.mem_cons.1 hl with rfl | hl
      · obtain ⟨x, hx⟩ := hok rfl
        cases hx
      · exact ih hcoherent hphase' hl hhash
    | ok x =>
      rcases List.mem_cons.1 hl with rfl | hl
      · exact ⟨x, List.mem_cons_self⟩
      · obtain ⟨y, hy⟩ := ih hcoherent hphase' hl hhash
        exact ⟨y, List.mem_cons_of_mem _ hy⟩

/-- **Sharing is the partition into classes of equivalent lambdas.** Whatever
is submitted to a new registry, two accepted lambdas are answered with equal
references if and only if they are equivalent, and a reference names the
first of the accepted lambdas that the lambda is equivalent to. If classes
are not shared, every accepted lambda has a class of its own, and names
itself. -/
theorem references_partition (a : Arena) (o : Options) (ls : List LambdaId) :
    (∀ l x, (l, x) ∈ (new a o).references ls ↔
      ((new a o).submitAll ls).2.canonical? l = some x) ∧
    (o.deduplicate = true → ∀ l x, (l, x) ∈ (new a o).references ls →
      (∀ m y, (m, y) ∈ (new a o).references ls →
        (x = y ↔ a.compareLambdas o.policy o.maxDepth l m = .ok .equivalent)) ∧
      (((new a o).references ls).map Prod.fst).find?
        (fun m => a.compareLambdas o.policy o.maxDepth l m = .ok .equivalent) =
          some x.canonical) ∧
    (o.deduplicate = false → ∀ l x, (l, x) ∈ (new a o).references ls →
      x.canonical = l ∧
        ∀ m y, (m, y) ∈ (new a o).references ls → (x.classId = y.classId ↔ l = m)) := by
  obtain ⟨hcoherent, hoptions, hrecorded⟩ :=
    submitAll_recorded (Coherent.new a o) (Recorded.new a o) ls
  rw [List.nil_append] at hrecorded
  have hoptions : ((new a o).submitAll ls).2.options = o := hoptions
  have hiff {l m : LambdaId} {x y : Reference} (hx : (l, x) ∈ (new a o).references ls)
      (hy : (m, y) ∈ (new a o).references ls) : x = y ↔ o.Alike a l m := by
    rw [← hoptions]
    exact hcoherent.eq_iff_alike (hrecorded.mem_iff.1 hx) (hrecorded.mem_iff.1 hy)
  refine ⟨fun l x => hrecorded.mem_iff, ?_, ?_⟩
  · intro hshared l x hx
    refine ⟨?_, ?_⟩
    · intro m y hy
      exact (hiff hx hy).trans (Options.alike_of_deduplicate hshared)
    · refine hrecorded.find?_eq hcoherent hx fun m => ?_
      rw [decide_eq_true_iff, hoptions]
      exact (Options.alike_of_deduplicate hshared).symm
  · intro hshared l x hx
    have hl := hrecorded.mem_iff.1 hx
    refine ⟨?_, ?_⟩
    · have halike := hcoherent.alike_canonical hl
      rw [hoptions, Options.alike_of_not_deduplicate hshared] at halike
      exact halike.symm
    · intro m y hy
      rw [← Options.alike_of_not_deduplicate hshared, ← hiff hx hy]
      constructor
      · exact Plan.eq_of_classId_eq hl (hrecorded.mem_iff.1 hy)
      · rintro rfl
        rfl

/-- Of the five lambdas, the first two come to share a class and the third
does not, though the second is submitted last; and an unknown lambda does not
disturb this. If classes are not shared, the second names itself. -/
theorem references_of_fiveLambdas :
    (∃ x y z,
      (⟨0⟩, x) ∈ (new Arena.fiveLambdas ⟨true, .positional, 2, {}⟩).references
        [⟨0⟩, ⟨2⟩, ⟨9⟩, ⟨1⟩] ∧
      (⟨2⟩, y) ∈ (new Arena.fiveLambdas ⟨true, .positional, 2, {}⟩).references
        [⟨0⟩, ⟨2⟩, ⟨9⟩, ⟨1⟩] ∧
      (⟨1⟩, z) ∈ (new Arena.fiveLambdas ⟨true, .positional, 2, {}⟩).references
        [⟨0⟩, ⟨2⟩, ⟨9⟩, ⟨1⟩] ∧
      x = z ∧ x ≠ y) ∧
    ∃ z, (⟨1⟩, z) ∈ (new Arena.fiveLambdas ⟨false, .positional, 2, {}⟩).references
        [⟨0⟩, ⟨2⟩, ⟨9⟩, ⟨1⟩] ∧ z.canonical = ⟨1⟩ := by
  have accepted (shared : Bool) {l : LambdaId} {words : List Nat}
      (hl : l ∈ [⟨0⟩, ⟨2⟩, ⟨9⟩, ⟨1⟩])
      (hwords : Fingerprint.lambdaWords Arena.fiveLambdas 2 l = .ok words) :
      ∃ x, (l, x) ∈ (new Arena.fiveLambdas ⟨shared, .positional, 2, {}⟩).references
        [⟨0⟩, ⟨2⟩, ⟨9⟩, ⟨1⟩] :=
    exists_mem_references (Coherent.new _ _) Phase.noConfusion hl
      (Arena.lambdaHash_of_words hwords)
  refine ⟨?_, ?_⟩
  · obtain ⟨x, hx⟩ := accepted true (l := ⟨0⟩) (by simp) rfl
    obtain ⟨y, hy⟩ := accepted true (l := ⟨2⟩) (by simp) rfl
    obtain ⟨z, hz⟩ := accepted true (l := ⟨1⟩) (by simp) rfl
    have hiff := ((references_partition _ _ _).2.1 rfl _ _ hx).1
    refine ⟨x, y, z, hx, hy, hz, (hiff _ _ hz).2 ?_, ?_⟩
    · rw [Arena.compareLambdas_eq]
      rfl
    · rw [ne_eq, hiff _ _ hy, Arena.compareLambdas_eq]
      intro h
      cases h
  · obtain ⟨z, hz⟩ := accepted false (l := ⟨1⟩) (by simp) rfl
    exact ⟨z, hz, ((references_partition _ _ _).2.2 rfl _ _ hz).1⟩

end Registry

end LambdaSharing
