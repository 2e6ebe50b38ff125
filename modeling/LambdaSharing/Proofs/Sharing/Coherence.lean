import LambdaSharing.Proofs.Comparison.Fingerprints
import LambdaSharing.Proofs.Sharing.Submission
import Mathlib.Data.List.Nodup

/-!
# Coherent registries

A registry compares a new lambda with few others: with the leaders of the
classes that have its fingerprint, and with each in one direction only. That
this is enough is a property of the registry as it stands, which holds at the
beginning and survives every request (`Registry.Reachable.coherent`). The
leaders of different classes are not alike, every accepted lambda is alike the
leader of its class, and the bucket of a fingerprint holds exactly the
classes that have it. As equivalence is symmetric and transitive, two
accepted lambdas are in one class if and only if they are alike
(`Registry.Coherent.eq_iff_alike`).

When classes are not shared, two lambdas are *alike* if they are the same
lambda. With this reading all of the above is true of such a registry too,
and nothing needs to be said twice.

Class numbers have 32 bits. They suffice because lambdas have no more: every
class has a leader of its own, and a lambda that is new leads none.
-/

namespace LambdaSharing

/-! ## Lambdas that belong together -/

/-- Two lambdas belong in one class: equivalent ones, if classes are shared
at all. -/
def Options.Alike (o : Options) (a : Arena) (l m : LambdaId) : Prop :=
  if o.deduplicate then a.Equivalent o.policy o.maxDepth l m else l = m

namespace Options

variable {o : Options} {a : Arena} {l m n : LambdaId} {hash : UInt64}

theorem alike_of_deduplicate (h : o.deduplicate = true) :
    o.Alike a l m ↔ a.Equivalent o.policy o.maxDepth l m := by
  rw [Alike, if_pos h]

theorem alike_of_not_deduplicate (h : o.deduplicate = false) : o.Alike a l m ↔ l = m := by
  rw [Alike, h, if_neg Bool.false_ne_true]

namespace Alike

/-- A lambda with a fingerprint is alike itself. -/
theorem refl (h : a.lambdaHash o.maxDepth l = .ok hash) : o.Alike a l l := by
  obtain ⟨c, hc, -⟩ := Arena.lambdaHash_eq_ok_iff.1 h
  unfold Alike
  split
  · exact Arena.Equivalent.refl hc
  · rfl

theorem symm (h : o.Alike a l m) : o.Alike a m l := by
  unfold Alike at h ⊢
  by_cases hshared : o.deduplicate = true
  · rw [if_pos hshared] at h ⊢
    exact h.symm
  · rw [if_neg hshared] at h ⊢
    exact h.symm

theorem trans (h : o.Alike a l m) (h' : o.Alike a m n) : o.Alike a l n := by
  unfold Alike at h h' ⊢
  by_cases hshared : o.deduplicate = true
  · rw [if_pos hshared] at h h' ⊢
    exact h.trans h'
  · rw [if_neg hshared] at h h' ⊢
    exact h.trans h'

/-- Lambdas that are alike say the same, if one of them has a fingerprint. -/
theorem read (h : o.Alike a l m) (hhash : a.lambdaHash o.maxDepth l = .ok hash) :
    ∃ c, a.readLambda o.maxDepth l = .ok c ∧ a.readLambda o.maxDepth m = .ok c := by
  unfold Alike at h
  by_cases hshared : o.deduplicate = true
  · rw [if_pos hshared] at h
    obtain ⟨c, hl, hm, -⟩ := Arena.equivalent_iff.1 h
    exact ⟨c, hl, hm⟩
  · rw [if_neg hshared] at h
    obtain ⟨c, hl, -⟩ := Arena.lambdaHash_eq_ok_iff.1 hhash
    exact ⟨c, hl, h ▸ hl⟩

/-- Lambdas that are alike have one fingerprint. -/
theorem lambdaHash_eq (h : o.Alike a l m) :
    a.lambdaHash o.maxDepth l = a.lambdaHash o.maxDepth m := by
  unfold Alike at h
  split at h
  · exact Arena.Equivalent.lambdaHash_eq h
  · rw [h]

end Alike

end Options

/-- There are no more lambdas than numbers. -/
theorem LambdaId.length_le_of_nodup {ls : List LambdaId} (h : ls.Nodup) :
    ls.length ≤ UInt32.size := by
  have hinj : Function.Injective fun l : LambdaId => l.index.toNat := by
    intro l m heq
    cases l
    cases m
    exact congrArg LambdaId.mk (UInt32.toNat_inj.1 heq)
  have hsubset : ls.map (fun l => l.index.toNat) ⊆ List.range UInt32.size := by
    intro n hn
    obtain ⟨l, -, rfl⟩ := List.mem_map.1 hn
    exact List.mem_range.2 l.index.toNat_lt
  have hlength := (h.map hinj).length_le_of_subset hsubset
  rwa [List.length_map, List.length_range] at hlength

/-! ## Coherence -/

namespace Registry

variable {a : Arena} {r : Registry a} {l m : LambdaId} {id id' : ClassId} {hash : UInt64}
  {e : Examination} {c : SharingClass}

/-- The class that is found is one whose leader the lambda is alike. -/
theorem leader?_of_found (he : r.examine l = .ok e)
    (hfound : e.search.found = some (id, c)) :
    r.draft.leader? id = some (c.canonical, c.hash) ∧ r.options.Alike a l c.canonical := by
  obtain ⟨-, -, hsearch⟩ := examine_eq_ok_iff.1 he
  by_cases hshared : r.options.deduplicate = true
  · rw [if_pos hshared] at hsearch
    obtain ⟨hclass, hequivalent⟩ := equivalent_of_searchAmong hsearch hfound
    exact ⟨Plan.leader?_eq_some_iff.2 ⟨c, hclass, rfl, rfl⟩,
      (Options.alike_of_deduplicate hshared).2 hequivalent⟩
  · rw [if_neg hshared] at hsearch
    rw [← Except.ok.inj hsearch] at hfound
    cases hfound

/-- What a registry has sorted fits together. -/
structure Coherent (r : Registry a) : Prop where
  /-- The classes can be numbered. -/
  size_le : r.draft.classes.size ≤ UInt32.size
  /-- An accepted lambda is alike the leader of its class. -/
  led : ∀ {l id}, r.draft.assignments[l]? = some id →
    ∃ m hash, r.draft.leader? id = some (m, hash) ∧ r.options.Alike a l m
  /-- The leader of a class is in the class. -/
  leads : ∀ {id m hash}, r.draft.leader? id = some (m, hash) →
    r.draft.assignments[m]? = some id
  /-- The fingerprint of a class is that of its leader. -/
  hashed : ∀ {id m hash}, r.draft.leader? id = some (m, hash) →
    a.lambdaHash r.options.maxDepth m = .ok hash
  /-- A bucket holds the classes with the fingerprint. -/
  listed : ∀ {hash id}, id ∈ r.bucket hash ↔ ∃ m, r.draft.leader? id = some (m, hash)
  /-- Leaders of different classes are not alike. -/
  apart : ∀ {id m hash id' m' hash'}, r.draft.leader? id = some (m, hash) →
    r.draft.leader? id' = some (m', hash') → r.options.Alike a m m' → id = id'

namespace Coherent

/-- A lambda that is assigned nowhere was not accepted. -/
theorem canonical?_eq_none_iff (h : r.Coherent) :
    r.canonical? l = none ↔ r.draft.assignments[l]? = none := by
  rw [Option.eq_none_iff_forall_ne_some, Option.eq_none_iff_forall_ne_some]
  constructor
  · intro hnone id hid
    obtain ⟨m, hash, hleader, -⟩ := h.led hid
    exact hnone ⟨id, m⟩ (Plan.canonical?_eq_some_iff.2 ⟨hid, hash, hleader⟩)
  · intro hnone x hx
    exact hnone x.classId (Plan.canonical?_eq_some_iff.1 hx).1

/-- An accepted lambda is alike the first lambda of its class. -/
theorem alike_canonical (h : r.Coherent) {x : Reference} (hx : r.canonical? l = some x) :
    r.options.Alike a l x.canonical := by
  obtain ⟨hid, hash, hleader⟩ := Plan.canonical?_eq_some_iff.1 hx
  obtain ⟨m, hash', hm, hlm⟩ := h.led hid
  rwa [Plan.leader?_unique hm hleader] at hlm

/-- The first lambda of a class was accepted, and is where its class is. -/
theorem canonical?_canonical (h : r.Coherent) {x : Reference} (hx : r.canonical? l = some x) :
    r.canonical? x.canonical = some x := by
  obtain ⟨-, hash, hleader⟩ := Plan.canonical?_eq_some_iff.1 hx
  exact Plan.canonical?_eq_some_iff.2 ⟨h.leads hleader, hash, hleader⟩

/-- **Two accepted lambdas are in one class if and only if they are alike.** -/
theorem eq_iff_alike (h : r.Coherent) {x y : Reference} (hx : r.canonical? l = some x)
    (hy : r.canonical? m = some y) : x = y ↔ r.options.Alike a l m := by
  constructor
  · rintro rfl
    exact (h.alike_canonical hx).trans (h.alike_canonical hy).symm
  · intro hlm
    have halike : r.options.Alike a x.canonical y.canonical :=
      ((h.alike_canonical hx).symm.trans hlm).trans (h.alike_canonical hy)
    obtain ⟨-, hash, hleader⟩ := Plan.canonical?_eq_some_iff.1 hx
    obtain ⟨-, hash', hleader'⟩ := Plan.canonical?_eq_some_iff.1 hy
    exact Plan.eq_of_classId_eq hx hy (h.apart hleader hleader' halike)

/-! ## Finding the class of a lambda -/

/-- If no class is found, the lambda is not alike any leader. Classes with
another fingerprint need not be searched. -/
theorem not_alike (h : r.Coherent) (hnew : r.draft.assignments[l]? = none)
    (he : r.examine l = .ok e) (hfound : e.search.found = none)
    (hleader : r.draft.leader? id = some (m, hash)) : ¬ r.options.Alike a l m := by
  intro halike
  obtain ⟨-, hhash, hsearch⟩ := examine_eq_ok_iff.1 he
  by_cases hshared : r.options.deduplicate = true
  · rw [if_pos hshared] at hsearch
    obtain ⟨c, hclass, rfl, rfl⟩ := Plan.leader?_eq_some_iff.1 hleader
    have hsame : e.hash = c.hash :=
      Except.ok.inj (hhash.symm.trans (halike.lambdaHash_eq.trans (h.hashed hleader)))
    have hmem : id ∈ r.bucket e.hash := h.listed.2 ⟨c.canonical, hsame ▸ hleader⟩
    exact not_equivalent_of_searchAmong hsearch hfound hmem hclass
      ((Options.alike_of_deduplicate hshared).1 halike)
  · obtain rfl := (Options.alike_of_not_deduplicate (Bool.not_eq_true _ ▸ hshared)).1 halike
    rw [h.leads hleader] at hnew
    cases hnew

/-- **A search for a lambda with a fingerprint comes to an end**: no comparison
with a leader stops with a fault. -/
theorem search_isOk (h : r.Coherent) (hhash : a.lambdaHash r.options.maxDepth l = .ok hash)
    (ids : List ClassId) : ∃ s, r.searchAmong l ids = .ok s := by
  refine searchAmong_isOk fun id _ c hclass => ?_
  have hleader := Plan.leader?_eq_some_iff.2 ⟨c, hclass, rfl, rfl⟩
  exact Arena.compareLambdas_of_hash r.options.policy hhash (h.hashed hleader)

/-- **A lambda with a fingerprint passes its examination.** -/
theorem examine_isOk (h : r.Coherent) (hhash : a.lambdaHash r.options.maxDepth l = .ok hash) :
    ∃ e, r.examine l = .ok e := by
  obtain ⟨content, hread, -⟩ := Arena.lambdaHash_eq_ok_iff.1 hhash
  obtain ⟨s, hs, -, -⟩ := Arena.readLambda_eq_ok_iff.1 hread
  have hsearch : ∃ search, (if r.options.deduplicate then r.searchAmong l (r.bucket hash)
      else .ok {}) = Except.ok search := by
    by_cases hshared : r.options.deduplicate = true
    · rw [if_pos hshared]
      exact h.search_isOk hhash (r.bucket hash)
    · exact ⟨{}, if_neg hshared⟩
  obtain ⟨search, hsearch⟩ := hsearch
  exact ⟨⟨s.lambda, hash, search⟩, examine_eq_ok_iff.2 ⟨⟨s, hs, rfl⟩, hhash, hsearch⟩⟩

/-- **A lambda with a fingerprint is accepted**, until the plan is handed
out. -/
theorem submit_isOk (h : r.Coherent) (hphase : r.phase ≠ .finalized)
    (hhash : a.lambdaHash r.options.maxDepth l = .ok hash) :
    ∃ x, (r.submit l).1 = .ok x := by
  obtain ⟨e, he⟩ := h.examine_isOk hhash
  rw [submit, if_neg hphase]
  cases r.canonical? l with
  | some x => exact ⟨x, rfl⟩
  | none =>
    rw [he]
    exact ⟨_, rfl⟩

/-! ## Numbers for the classes -/

/-- The number of a class is its place. -/
theorem toNat_place (h : r.Coherent) {i : Nat} (hi : i < r.draft.classes.size) :
    (UInt32.ofNat i).toNat = i :=
  UInt32.toNat_ofNat_of_lt' (Nat.lt_of_lt_of_le hi h.size_le)

/-- The leader of the class in a place is assigned to the place. -/
theorem assignments_canonical (h : r.Coherent) {i : Nat} (hi : i < r.draft.classes.size) :
    r.draft.assignments[r.draft.classes[i].canonical]? = some ⟨UInt32.ofNat i⟩ := by
  refine h.leads (Plan.leader?_eq_some_iff.2 ⟨r.draft.classes[i], ?_, rfl, rfl⟩)
  rw [Plan.class?, h.toNat_place hi, Array.getElem?_eq_getElem hi]

/-- Every class has a leader of its own. -/
theorem nodup_canonical (h : r.Coherent) : (r.draft.classes.toList.map (·.canonical)).Nodup := by
  rw [List.nodup_iff_pairwise_ne, List.pairwise_iff_getElem]
  intro i j hi hj hij heq
  simp only [List.getElem_map, Array.getElem_toList] at heq
  have hi : i < r.draft.classes.size := by simpa using hi
  have hj : j < r.draft.classes.size := by simpa using hj
  have hplaces := h.assignments_canonical hi
  rw [heq, h.assignments_canonical hj] at hplaces
  have hnumbers : (UInt32.ofNat j).toNat = (UInt32.ofNat i).toNat :=
    congrArg (fun id : ClassId => id.index.toNat) (Option.some.inj hplaces)
  rw [h.toNat_place hj, h.toNat_place hi] at hnumbers
  exact Nat.ne_of_lt hij hnumbers.symm

/-- There is a number left for the class of a new lambda: the leaders of the
classes and the new lambda are all different, and each has a number. -/
theorem size_lt (h : r.Coherent) (hnew : r.draft.assignments[l]? = none) :
    r.draft.classes.size < UInt32.size := by
  have hmem : l ∉ r.draft.classes.toList.map (·.canonical) := by
    intro hmem
    obtain ⟨c, hc, rfl⟩ := List.mem_map.1 hmem
    obtain ⟨i, hi, rfl⟩ := List.getElem_of_mem hc
    rw [Array.getElem_toList, h.assignments_canonical (by simpa using hi)] at hnew
    cases hnew
  have hlength := LambdaId.length_le_of_nodup (List.nodup_cons.2 ⟨hmem, h.nodup_canonical⟩)
  rwa [List.length_cons, List.length_map, Array.length_toList] at hlength

/-! ## Coherence is kept -/

/-- A registry that has accepted nothing is coherent. -/
theorem new (a : Arena) (o : Options) : (Registry.new a o).Coherent where
  size_le := Nat.zero_le _
  led hid := by
    rw [show (Registry.new a o).draft.assignments = ∅ from rfl,
      Std.ExtTreeMap.getElem?_empty] at hid
    cases hid
  leads hleader := by
    cases hleader
  hashed hleader := by
    cases hleader
  listed {hash id} := by
    have hbucket : (Registry.new a o).bucket hash = [] := Std.ExtTreeMap.getD_empty
    rw [hbucket]
    constructor
    · intro hmem
      cases hmem
    · rintro ⟨m, hleader⟩
      cases hleader
  apart hleader := by
    cases hleader

/-- Adding a lambda to the class that was found for it keeps coherence. -/
theorem accept_found (h : r.Coherent) (hnew : r.draft.assignments[l]? = none)
    (he : r.examine l = .ok e) (hfound : e.search.found = some (id, c)) :
    (r.accept l e).2.Coherent := by
  obtain ⟨hclass, halike⟩ := leader?_of_found he hfound
  refine ⟨?size, ?led, ?leads, ?hashed, ?listed, ?apart⟩
  case size =>
    rw [accept_of_found hfound, Plan.size_classes_fold, Plan.size_classes_count]
    exact h.size_le
  -- all the rest is about leaders, which do not change, and assignments, of which there is one
  -- more
  all_goals simp only [leader?_accept_of_found hfound, bucket_accept_of_found hfound,
    assignments_accept_iff hnew, reference_accept_of_found hfound, options_accept]
  case led =>
    rintro m id' (⟨rfl, rfl⟩ | hid')
    · exact ⟨c.canonical, c.hash, hclass, halike⟩
    · exact h.led hid'
  case leads =>
    intro id' m hash hleader
    exact .inr (h.leads hleader)
  case hashed => exact h.hashed
  case listed => exact h.listed
  case apart => exact h.apart

/-- Starting a class with a lambda for which none was found keeps
coherence. -/
theorem accept_none (h : r.Coherent) (hnew : r.draft.assignments[l]? = none)
    (he : r.examine l = .ok e) (hfound : e.search.found = none) :
    (r.accept l e).2.Coherent := by
  have hsize := h.size_lt hnew
  have hhash := (examine_eq_ok_iff.1 he).2.1
  refine ⟨?size, ?led, ?leads, ?hashed, ?listed, ?apart⟩
  case size =>
    rw [accept_of_none hfound, Plan.size_classes_create, Plan.size_classes_count]
    exact hsize
  all_goals simp only [leader?_accept_of_none_iff hfound hsize,
    mem_bucket_accept_of_none_iff hfound, assignments_accept_iff hnew,
    reference_accept_of_none hfound, options_accept]
  case led =>
    rintro m id (⟨rfl, rfl⟩ | hid)
    · exact ⟨m, e.hash, .inl ⟨rfl, rfl, rfl⟩, .refl hhash⟩
    · obtain ⟨leader, hash, hleader, halike⟩ := h.led hid
      exact ⟨leader, hash, .inr hleader, halike⟩
  case leads =>
    rintro id m hash (⟨rfl, rfl, -⟩ | hleader)
    · exact .inl ⟨rfl, rfl⟩
    · exact .inr (h.leads hleader)
  case hashed =>
    rintro id m hash (⟨-, rfl, rfl⟩ | hleader)
    · exact hhash
    · exact h.hashed hleader
  case listed =>
    intro hash id
    rw [h.listed]
    constructor
    · rintro (⟨rfl, rfl⟩ | ⟨m, hleader⟩)
      · exact ⟨l, .inl ⟨rfl, rfl, rfl⟩⟩
      · exact ⟨m, .inr hleader⟩
    · rintro ⟨m, ⟨rfl, -, rfl⟩ | hleader⟩
      · exact .inl ⟨rfl, rfl⟩
      · exact .inr ⟨m, hleader⟩
  case apart =>
    -- the new lambda is not alike any other leader, on whichever side it stands
    rintro id m hash id' m' hash' (⟨rfl, rfl, -⟩ | hleader) (⟨rfl, rfl, -⟩ | hleader') halike
    · rfl
    · exact absurd halike (h.not_alike hnew he hfound hleader')
    · exact absurd halike.symm (h.not_alike hnew he hfound hleader)
    · exact h.apart hleader hleader' halike

/-- Accepting a new lambda keeps coherence. -/
theorem accept (h : r.Coherent) (hnew : r.draft.assignments[l]? = none)
    (he : r.examine l = .ok e) : (r.accept l e).2.Coherent := by
  cases hfound : e.search.found with
  | some found => exact h.accept_found hnew he hfound
  | none => exact h.accept_none hnew he hfound

/-- All leaders stay, and the class that is answered has the leader that is
answered. -/
theorem leader?_accept (h : r.Coherent) (hnew : r.draft.assignments[l]? = none)
    (he : r.examine l = .ok e) :
    (∀ {id m hash}, r.draft.leader? id = some (m, hash) →
      (r.accept l e).2.draft.leader? id = some (m, hash)) ∧
    ∃ hash, (r.accept l e).2.draft.leader? (r.accept l e).1.classId =
      some ((r.accept l e).1.canonical, hash) := by
  cases hfound : e.search.found with
  | some found =>
    simp only [leader?_accept_of_found hfound, reference_accept_of_found hfound]
    exact ⟨fun hleader => hleader, _, (leader?_of_found he hfound).1⟩
  | none =>
    simp only [leader?_accept_of_none_iff hfound (h.size_lt hnew),
      reference_accept_of_none hfound]
    exact ⟨.inr, e.hash, .inl ⟨trivial, trivial, rfl⟩⟩

/-- An accepted lambda is found where it was put, and no other one moves. -/
theorem canonical?_accept_iff (h : r.Coherent) (hnew : r.draft.assignments[l]? = none)
    (he : r.examine l = .ok e) {x : Reference} :
    (r.accept l e).2.canonical? m = some x ↔
      (m = l ∧ x = (r.accept l e).1) ∨ r.canonical? m = some x := by
  obtain ⟨hold, hash, hself⟩ := h.leader?_accept hnew he
  constructor
  · intro hx
    obtain ⟨hid, hash', hleader⟩ := Plan.canonical?_eq_some_iff.1 hx
    rcases (assignments_accept_iff hnew).1 hid with ⟨rfl, hclass⟩ | hid
    · have haccepted : (r.accept m e).2.canonical? m = some (r.accept m e).1 :=
        Plan.canonical?_eq_some_iff.2
          ⟨(assignments_accept_iff hnew).2 (.inl ⟨rfl, rfl⟩), hash, hself⟩
      exact .inl ⟨rfl, Plan.eq_of_classId_eq hx haccepted hclass⟩
    · obtain ⟨m', hash'', hleader', -⟩ := h.led hid
      obtain rfl := Plan.leader?_unique (hold hleader') hleader
      exact .inr (Plan.canonical?_eq_some_iff.2 ⟨hid, hash'', hleader'⟩)
  · rintro (⟨rfl, rfl⟩ | hx)
    · exact Plan.canonical?_eq_some_iff.2
        ⟨(assignments_accept_iff hnew).2 (.inl ⟨rfl, rfl⟩), hash, hself⟩
    · obtain ⟨hid, hash', hleader⟩ := Plan.canonical?_eq_some_iff.1 hx
      exact Plan.canonical?_eq_some_iff.2
        ⟨(assignments_accept_iff hnew).2 (.inr hid), hash', hold hleader⟩

/-- The first lambda of the class of an accepted lambda is that lambda itself
or was accepted before. -/
theorem canonical_accept (h : r.Coherent) (he : r.examine l = .ok e) :
    (r.accept l e).1.canonical = l ∨ ∃ x, r.canonical? (r.accept l e).1.canonical = some x := by
  cases hfound : e.search.found with
  | some found =>
    obtain ⟨id, c⟩ := found
    obtain ⟨hleader, -⟩ := leader?_of_found he hfound
    rw [reference_accept_of_found hfound]
    exact .inr ⟨⟨id, c.canonical⟩,
      Plan.canonical?_eq_some_iff.2 ⟨h.leads hleader, c.hash, hleader⟩⟩
  | none =>
    rw [reference_accept_of_none hfound]
    exact .inl rfl

/-- Submitting a lambda keeps coherence. -/
theorem submit (h : r.Coherent) (l : LambdaId) : (r.submit l).2.Coherent := by
  rcases submit_cases r l with ⟨refusal, hsubmit⟩ | ⟨x, -, hsubmit⟩ | ⟨e, -, hnew, he, hsubmit⟩
  · rw [hsubmit]
    exact h
  · rw [hsubmit]
    exact h
  · rw [hsubmit]
    exact h.accept (h.canonical?_eq_none_iff.1 hnew) he

/-- Handing out the plan keeps coherence. -/
theorem finalize (h : r.Coherent) : r.finalize.2.Coherent := by
  rw [finalize_snd]
  exact ⟨h.size_le, h.led, h.leads, h.hashed, h.listed, h.apart⟩

end Coherent

/-- A new registry knows no lambda. -/
theorem canonical?_new (a : Arena) (o : Options) (l : LambdaId) :
    (Registry.new a o).canonical? l = none :=
  (Coherent.new a o).canonical?_eq_none_iff.2 Std.ExtTreeMap.getElem?_empty

/-! ## Reachable registries -/

/-- A registry that requests to a new one lead to. -/
inductive Reachable (o : Options) : Registry a → Prop where
  | new : Reachable o (Registry.new a o)
  | submit {r : Registry a} (h : Reachable o r) (l : LambdaId) : Reachable o (r.submit l).2
  | finalize {r : Registry a} (h : Reachable o r) : Reachable o r.finalize.2

/-- Whatever is requested of it, a registry remembers what it was told. -/
theorem Reachable.options_eq {o : Options} (h : Reachable o r) : r.options = o := by
  induction h with
  | new => rfl
  | submit _ l ih => rw [options_submit, ih]
  | finalize _ ih =>
    rw [finalize_snd]
    exact ih

/-- **Whatever was requested of it, a registry is coherent.** -/
theorem Reachable.coherent {o : Options} (h : Reachable o r) : r.Coherent := by
  induction h with
  | new => exact .new a o
  | submit _ l ih => exact ih.submit l
  | finalize _ ih => exact ih.finalize

end Registry

end LambdaSharing
